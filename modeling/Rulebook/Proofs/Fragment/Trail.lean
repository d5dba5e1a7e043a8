import Rulebook.Proofs.Fragment.Search
import Rulebook.Proofs.Outcome

/-!
# What a walk cuts

A walk does not enter what is not admitted, so it could miss something admitted further in. It does not, if what is
around something admitted is admitted, as it is with the scope of patterns. This module provides:

* `turn` — what an entry means to a walk, whatever is admitted, and `walkEntry_eq`, by which a walk makes turns;
* `trail` — all that a walk comes to, directories too, of which the walk lists the files (`walk_eq_files`); and
* `walk_pruned` — the trail of a walk in scope is the part of the whole trail that is in scope.
-/

namespace Rulebook

namespace Fragment.Search

/-! ### Turns -/

/-- What an entry means to a walk. -/
inductive Turn where
  /-- The walk fails at the entry. -/
  | halt (stop : Stop)
  /-- The entry leads back, or to nothing that a walk looks at. -/
  | back
  /-- The entry is a file, or a link to one. -/
  | file
  /-- The entry is a directory, or a link to one, at that location. So many links can be followed from there. -/
  | directory (there : Location) (links : Nat) (entries : List (String × Tree))

/-- Is the turn taken? A failure that has no place counts even where the entry is not admitted. -/
def Turn.isTaken (admitted : Bool) : Turn → Bool
  | .halt stop => admitted || !stop.isPlaced
  | _ => admitted

@[simp] theorem Turn.isTaken_true (turn : Turn) : turn.isTaken true = true := by
  cases turn <;> rfl

/-- The turn that a walk takes at an entry. -/
def turn (fs : FileSystem) (links : Nat) (place : Place) (name : String) : Tree → Turn
  | .file _ => .file
  | .directory entries =>
    if fs.isSealed (place.location ++ [name]) then .halt ⟨true, .permissionDenied⟩
    else .directory (place.location ++ [name]) links entries
  | .link target =>
    match linkTarget fs.root place target with
    | .error error => .halt ⟨true, error⟩
    | .ok there =>
      match fs.root.at? there with
      | some (.directory entries) =>
        if fs.isSealed there then .halt ⟨false, .permissionDenied⟩
        else
          match links with
          | 0 => .back
          | links + 1 => if place.inside.contains there then .back else .directory there links entries
      | some (.file _) => .file
      | _ => .back

/-- A directory is entered with a link less, or is a part of the tree that is looked at. -/
theorem turn_lt {fs : FileSystem} {tree : Tree} {links left : Nat} {place : Place} {name : String} {there : Location}
    {entries : List (String × Tree)} (h : turn fs links place name tree = .directory there left entries) :
    left < links ∨ left = links ∧ sizeOf entries < sizeOf tree := by
  cases tree with
  | file content => cases h
  | directory inner =>
      rw [turn] at h
      split at h
      · cases h
      · obtain ⟨-, rfl, rfl⟩ := Turn.directory.inj h
        exact .inr ⟨rfl, by simp⟩
  | link target =>
      rw [turn] at h
      split at h
      · cases h
      · split at h
        · split at h
          · cases h
          · split at h
            · cases h
            · split at h
              · cases h
              · obtain ⟨-, rfl, -⟩ := Turn.directory.inj h
                exact .inl (Nat.lt_succ_self _)
        · cases h
        · cases h

/-- At an entry a walk takes its turn, or none. -/
theorem walkEntry_eq (fs : FileSystem) (links : Nat) (place : Place) (name : String) (tree : Tree) :
    walkEntry fs links place name tree =
      if (turn fs links place name tree).isTaken (place.admits (place.relative ++ [name])) then
        match turn fs links place name tree with
        | .halt stop => .error (stop.fault (place.relative ++ [name]))
        | .back => .ok []
        | .file => .ok [place.relative ++ [name]]
        | .directory there left entries => walkEntries fs left (place.jump name there) entries
      else .ok [] := by
  cases tree with
  | file content =>
      cases hadmits : place.admits (place.relative ++ [name]) <;> simp [walkEntry, turn, Turn.isTaken, hadmits]
  | directory inner =>
      rw [walkEntry, turn]
      cases hsealed : fs.isSealed (place.location ++ [name]) <;>
        cases hadmits : place.admits (place.relative ++ [name]) <;>
          simp [Turn.isTaken, Stop.fault, Place.enter, Place.jump]
  | link target =>
      rw [walkEntry, turn]
      cases linkTarget fs.root place target with
      | error error => cases hadmits : place.admits (place.relative ++ [name]) <;> simp [Turn.isTaken, Stop.fault]
      | ok there =>
          dsimp only
          obtain hnode | ⟨node, hnode⟩ := Option.eq_none_or_eq_some (fs.root.at? there)
          · simp [hnode]
          · cases node with
            | file content => cases hadmits : place.admits (place.relative ++ [name]) <;> simp [hnode, Turn.isTaken]
            | link further => simp [hnode]
            | directory inner =>
                simp only [hnode]
                cases hsealed : fs.isSealed there with
                | true => simp [Turn.isTaken, Stop.fault]
                | false =>
                    cases links with
                    | zero => simp
                    | succ left =>
                        cases hadmits : place.admits (place.relative ++ [name]) <;>
                          by_cases hback : there ∈ place.inside <;> simp [Turn.isTaken, hback]

/-! ### Trails -/

/-- Something that a walk comes to. -/
structure Visit where
  location : Location
  isFile : Bool

mutual

/-- All that a walk comes to by an entry. -/
def trailEntry (fs : FileSystem) (links : Nat) (place : Place) (name : String) (tree : Tree) :
    Except Fault (List Visit) :=
  let relative := place.relative ++ [name]
  if (turn fs links place name tree).isTaken (place.admits relative) then
    match _hturn : turn fs links place name tree with
    | .halt stop => .error (stop.fault relative)
    | .back => .ok []
    | .file => .ok [⟨relative, true⟩]
    | .directory there left entries =>
      (trailEntries fs left (place.jump name there) entries).map (⟨relative, false⟩ :: ·)
  else .ok []
termination_by (links, sizeOf tree)
decreasing_by
  exact Prod.lex_def.2 (turn_lt _hturn)

/-- All that a walk comes to by entries, or the first fault. -/
def trailEntries (fs : FileSystem) (links : Nat) (place : Place) (entries : List (String × Tree)) :
    Except Fault (List Visit) :=
  match entries with
  | [] => .ok []
  | (name, tree) :: rest =>
    match trailEntry fs links place name tree with
    | .error fault => .error fault
    | .ok visits => (trailEntries fs links place rest).map (visits ++ ·)
termination_by (links, sizeOf entries)

end

/-- All that a walk comes to at and below a path. The path itself is always entered. -/
def trail (fs : FileSystem) (admits : Location → Bool) (path : Path) : Except Fault (List Visit) :=
  match fs.locate path false with
  | .error error => if admits [] then .error (some [], error) else .ok []
  | .ok location =>
    match fs.root.at? location with
    | some (.directory entries) =>
      if fs.isSealed location then (sealedRoot fs admits path).map fun _ => []
      else
        (trailEntries fs fs.root.directoryCount ⟨admits, [location], location, []⟩ entries).map (⟨[], false⟩ :: ·)
    | some (.file _) => .ok [⟨[], true⟩]
    | _ => .ok []

theorem trailEntry_eq (fs : FileSystem) (links : Nat) (place : Place) (name : String) (tree : Tree) :
    trailEntry fs links place name tree =
      if (turn fs links place name tree).isTaken (place.admits (place.relative ++ [name])) then
        match turn fs links place name tree with
        | .halt stop => .error (stop.fault (place.relative ++ [name]))
        | .back => .ok []
        | .file => .ok [⟨place.relative ++ [name], true⟩]
        | .directory there left entries =>
          (trailEntries fs left (place.jump name there) entries).map (⟨place.relative ++ [name], false⟩ :: ·)
      else .ok [] := by
  rw [trailEntry]
  split
  · split <;> simp_all
  · rfl

/-- The files that were come to. -/
def files (visits : List Visit) : List Location :=
  (visits.filter Visit.isFile).map Visit.location

mutual

theorem walkEntry_eq_files (fs : FileSystem) (links : Nat) (place : Place) (name : String) (tree : Tree) :
    walkEntry fs links place name tree = (trailEntry fs links place name tree).map files := by
  rw [walkEntry_eq, trailEntry_eq]
  split
  · cases hturn : turn fs links place name tree with
    | directory there left entries =>
        dsimp only
        rw [walkEntries_eq_files fs left (place.jump name there) entries]
        cases trailEntries fs left (place.jump name there) entries <;> rfl
    | _ => rfl
  · rfl
termination_by (links, sizeOf tree)
decreasing_by
  exact Prod.lex_def.2 (turn_lt hturn)

/-- A walk lists the files on its trail. -/
theorem walkEntries_eq_files (fs : FileSystem) (links : Nat) (place : Place) (entries : List (String × Tree)) :
    walkEntries fs links place entries = (trailEntries fs links place entries).map files := by
  match entries with
  | [] =>
      rw [walkEntries, trailEntries]
      rfl
  | (name, tree) :: rest =>
      rw [walkEntries, trailEntries, walkEntry_eq_files fs links place name tree,
        walkEntries_eq_files fs links place rest]
      cases trailEntry fs links place name tree with
      | error fault => rfl
      | ok visits => cases trailEntries fs links place rest <;> simp [Except.map, files]
termination_by (links, sizeOf entries)

end

theorem walk_eq_files (fs : FileSystem) (admits : Location → Bool) (path : Path) :
    walk fs admits path = (trail fs admits path).map files := by
  rw [walk, trail]
  cases fs.locate path false with
  | error error => cases admits [] <;> rfl
  | ok location =>
      dsimp only
      cases fs.root.at? location with
      | none => rfl
      | some node =>
          cases node with
          | directory entries =>
              dsimp only
              cases fs.isSealed location with
              | true =>
                  simp only [if_true, sealedRoot]
                  cases fs.isLink path <;> cases admits [] <;> rfl
              | false =>
                  rw [walkEntries_eq_files]
                  cases trailEntries _ _ _ _ <;> rfl
          | _ => rfl

/-! ### What is cut -/

mutual

theorem prefix_of_mem_trailEntry {fs : FileSystem} {links : Nat} {place : Place} {name : String} {tree : Tree}
    {visits : List Visit} (h : trailEntry fs links place name tree = .ok visits) :
    ∀ visit ∈ visits, place.relative ++ [name] <+: visit.location := by
  rw [trailEntry_eq] at h
  split at h
  · cases hturn : turn fs links place name tree with
    | halt stop =>
        rw [hturn] at h
        cases h
    | back =>
        rw [hturn] at h
        cases h
        exact nofun
    | file =>
        rw [hturn] at h
        cases h
        exact List.forall_mem_singleton.2 (List.prefix_refl _)
    | directory there left entries =>
        rw [hturn] at h
        obtain ⟨inner, hinner, rfl⟩ := map_eq_ok_iff.1 h
        refine List.forall_mem_cons.2 ⟨List.prefix_refl _, fun visit hvisit => ?_⟩
        obtain ⟨next, hnext⟩ := prefix_of_mem_trailEntries hinner visit hvisit
        exact (List.prefix_append _ _).trans hnext
  · cases h
    exact nofun
termination_by (links, sizeOf tree)
decreasing_by
  exact Prod.lex_def.2 (turn_lt hturn)

/-- A trail from a place goes on below it. -/
theorem prefix_of_mem_trailEntries {fs : FileSystem} {links : Nat} {place : Place} {entries : List (String × Tree)}
    {visits : List Visit} (h : trailEntries fs links place entries = .ok visits) :
    ∀ visit ∈ visits, ∃ name, place.relative ++ [name] <+: visit.location := by
  match entries with
  | [] =>
      rw [trailEntries] at h
      cases h
      exact nofun
  | (name, tree) :: rest =>
      rw [trailEntries] at h
      cases hfirst : trailEntry fs links place name tree with
      | error fault =>
          rw [hfirst] at h
          cases h
      | ok first =>
          rw [hfirst] at h
          obtain ⟨more, hmore, rfl⟩ := map_eq_ok_iff.1 h
          refine List.forall_mem_append.2 ⟨fun visit hvisit => ?_, prefix_of_mem_trailEntries hmore⟩
          exact ⟨name, prefix_of_mem_trailEntry hfirst visit hvisit⟩
termination_by (links, sizeOf entries)

end

/-- The same place, with everything admitted. -/
def Place.unbounded (place : Place) : Place :=
  { place with admits := fun _ => true }

/-- What an entry means does not depend on what is admitted. -/
theorem turn_unbounded (fs : FileSystem) (links : Nat) (place : Place) (name : String) (tree : Tree) :
    turn fs links place.unbounded name tree = turn fs links place name tree := by
  cases tree <;> rfl

/-- The part of a trail that is admitted. -/
def cut (admits : Location → Bool) (visits : List Visit) : List Visit :=
  visits.filter fun visit => admits visit.location

mutual

theorem trailEntry_cut {fs : FileSystem} {links : Nat} {place : Place} {name : String} {tree : Tree} {all : List Visit}
    (hclosed : Closed place.admits) (h : trailEntry fs links place.unbounded name tree = .ok all) :
    trailEntry fs links place name tree = .ok (cut place.admits all) := by
  have hbegin := prefix_of_mem_trailEntry h
  have hwide : place.unbounded.admits (place.unbounded.relative ++ [name]) = true := rfl
  rw [trailEntry_eq, hwide, Turn.isTaken_true, if_pos rfl, turn_unbounded] at h
  rw [trailEntry_eq]
  cases hadmits : place.admits (place.relative ++ [name]) with
  | false =>
      -- Nothing below the entry is admitted, since the entry is not.
      have hnone : cut place.admits all = [] := by
        refine List.filter_eq_nil_iff.2 fun visit hvisit hvisited => ?_
        have houter : place.admits (place.relative ++ [name]) = true := hclosed (hbegin visit hvisit) hvisited
        rw [hadmits] at houter
        cases houter
      cases hturn : turn fs links place name tree with
      | halt stop =>
          rw [hturn] at h
          cases h
      | _ => simp [Turn.isTaken, hnone]
  | true =>
      rw [Turn.isTaken_true, if_pos rfl]
      cases hturn : turn fs links place name tree with
      | halt stop =>
          rw [hturn] at h
          cases h
      | back =>
          rw [hturn] at h
          cases h
          rfl
      | file =>
          rw [hturn] at h
          cases h
          simp [cut, Place.unbounded, hadmits]
      | directory there left entries =>
          rw [hturn] at h
          obtain ⟨inner, hinner, rfl⟩ := map_eq_ok_iff.1 h
          have hcut : trailEntries fs left (place.jump name there) entries = .ok (cut place.admits inner) :=
            trailEntries_cut hclosed hinner
          dsimp only
          rw [hcut]
          simp [cut, Place.unbounded, Except.map, hadmits]
termination_by (links, sizeOf tree)
decreasing_by
  exact Prod.lex_def.2 (turn_lt hturn)

/-- A walk that goes where it is admitted comes to what is admitted of all that there is. -/
theorem trailEntries_cut {fs : FileSystem} {links : Nat} {place : Place} {entries : List (String × Tree)}
    {all : List Visit} (hclosed : Closed place.admits)
    (h : trailEntries fs links place.unbounded entries = .ok all) :
    trailEntries fs links place entries = .ok (cut place.admits all) := by
  match entries with
  | [] =>
      rw [trailEntries] at h ⊢
      cases h
      rfl
  | (name, tree) :: rest =>
      rw [trailEntries] at h ⊢
      cases hfirst : trailEntry fs links place.unbounded name tree with
      | error fault =>
          rw [hfirst] at h
          cases h
      | ok first =>
          rw [hfirst] at h
          obtain ⟨more, hmore, rfl⟩ := map_eq_ok_iff.1 h
          rw [trailEntry_cut hclosed hfirst, trailEntries_cut hclosed hmore]
          simp [cut, Except.map]
termination_by (links, sizeOf entries)

end

theorem trail_cut {fs : FileSystem} {admits : Location → Bool} {path : Path} {all : List Visit}
    (hclosed : Closed admits) (h : trail fs (fun _ => true) path = .ok all) :
    trail fs admits path = .ok (cut (withRoot admits) all) := by
  rw [trail] at h ⊢
  cases hlocate : fs.locate path false with
  | error error =>
      rw [hlocate] at h
      cases h
  | ok here =>
      rw [hlocate] at h
      dsimp only at h ⊢
      cases hnode : fs.root.at? here with
      | none =>
          rw [hnode] at h
          cases h
          rfl
      | some node =>
          rw [hnode] at h
          cases node with
          | file content =>
              cases h
              rfl
          | link target =>
              cases h
              rfl
          | directory entries =>
              dsimp only at h ⊢
              cases hsealed : fs.isSealed here with
              | true =>
                  rw [hsealed] at h
                  simp only [if_true, sealedRoot] at h
                  split at h <;> cases h
              | false =>
                  rw [hsealed] at h
                  obtain ⟨inner, hinner, rfl⟩ := map_eq_ok_iff.1 h
                  have hcut : trailEntries fs fs.root.directoryCount ⟨admits, [here], here, []⟩ entries =
                      .ok (cut admits inner) := trailEntries_cut hclosed hinner
                  have hbelow : cut (withRoot admits) inner = cut admits inner := by
                    refine List.filter_congr fun visit hvisit => ?_
                    obtain ⟨name, hprefix⟩ := prefix_of_mem_trailEntries hinner visit hvisit
                    have hne : visit.location ≠ [] := hprefix.ne_nil (by simp)
                    simp [withRoot, hne]
                  rw [hcut, ← hbelow]
                  rfl

/-- **A scope cuts only what is out of scope.** Take any patterns. Whatever is around a location in their scope is in
scope too. So if everything below a root can be walked, then a walk that enters no more than what is in scope, and the
root, comes to all that is in scope and to nothing else; and the files that it lists are those of all that are in
scope. -/
theorem walk_pruned (patterns : List String) :
    (∀ outer location : Location, outer <+: location → (Scope.ofPatterns patterns).admits location = true →
        (Scope.ofPatterns patterns).admits outer = true) ∧
      ∀ (fs : FileSystem) (root : Path) (all : List Visit), trail fs (fun _ => true) root = .ok all →
        trail fs (Scope.ofPatterns patterns).admits root = .ok (cut (withRoot (Scope.ofPatterns patterns).admits) all) ∧
          walk fs (Scope.ofPatterns patterns).admits root =
            .ok (files (cut (withRoot (Scope.ofPatterns patterns).admits) all)) := by
  refine ⟨fun outer location => closed_scope _, fun fs root all h => ?_⟩
  have htrail := trail_cut (closed_scope (Scope.ofPatterns patterns)) h
  refine ⟨htrail, ?_⟩
  rw [walk_eq_files, htrail]
  rfl

/-- Data with a link to documents, and the documents. -/
def linkedFiles : FileSystem where
  root := .directory [("data", .directory [("more", .link "../docs")]),
    ("docs", .directory [("b.yaml", .file "b: 1\n".toUTF8)])]
  here := []

theorem linkTarget_linked {place : Place} (h : place.location = ["data"]) :
    linkTarget linkedFiles.root place "../docs" = .ok ["docs"] := by
  have hsteps : FileSystem.steps "../docs" = ["..", "docs"] := by decide
  have hstart : FileSystem.start ["data"] "../docs" = ["data"] := by decide
  have hname : FileSystem.IsName "docs" := ⟨by decide, by decide, by decide⟩
  rw [linkTarget, h, hsteps, hstart, FileSystem.follow_up rfl, FileSystem.follow_enter rfl hname rfl (by simp),
    FileSystem.follow]
  rfl

theorem trail_linked :
    trail linkedFiles (fun _ => true) ⟨"."⟩ =
      .ok [⟨[], false⟩, ⟨["data"], false⟩, ⟨["data", "more"], false⟩, ⟨["data", "more", "b.yaml"], true⟩,
        ⟨["docs"], false⟩, ⟨["docs", "b.yaml"], true⟩] := by
  have hroot : linkedFiles.root.at? [] = some (.directory [("data", .directory [("more", .link "../docs")]),
    ("docs", .directory [("b.yaml", .file "b: 1\n".toUTF8)])]) := rfl
  have hdocs : linkedFiles.root.at? ["docs"] = some (.directory [("b.yaml", .file "b: 1\n".toUTF8)]) := rfl
  have hcount : linkedFiles.root.directoryCount = 3 := rfl
  have hhere : linkedFiles.here = [] := rfl
  have hopen : ∀ location, linkedFiles.isSealed location = false := fun _ => rfl
  rw [trail, FileSystem.locate_here rfl]
  dsimp only
  rw [hhere, hroot, hcount]
  simp [trailEntries, trailEntry_eq, turn, linkTarget_linked, hdocs, hopen, Place.jump, Except.map]

/-- The documents are out of scope, but in scope where the link leads to them. -/
theorem walk_pruned_linked :
    ∃ all, trail linkedFiles (fun _ => true) ⟨"."⟩ = .ok all ∧
      files all = [["data", "more", "b.yaml"], ["docs", "b.yaml"]] ∧
      walk linkedFiles (Scope.ofPatterns ["data/**/*.yaml"]).admits ⟨"."⟩ = .ok [["data", "more", "b.yaml"]] :=
  ⟨_, trail_linked, rfl, ((walk_pruned _).2 _ _ _ trail_linked).2⟩

end Fragment.Search

end Rulebook
