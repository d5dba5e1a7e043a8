import Rulebook.Proofs.FileSystem.Agreement
import Rulebook.Proofs.FileSystem.Writing
import Rulebook.Proofs.Fragment.Walk

/-!
# The order in which directories are listed

The entries of a directory come in some order, which says nothing about the files. This module provides:

* `Tree.Relisted` and `FileSystem.Relisted` — the same names, links and files, with the entries of each directory in
  any order;
* that paths lead to the same places (`Relisted.follow_eq`, `Relisted.locate_eq`), and that files read the same
  (`Relisted.readText_eq`); and
* that a walk can come to the same files and the same dangling links (`finds_iff`, `stops_iff`).
-/

namespace Rulebook

namespace Tree

/-- The same tree, but for the order in which each directory lists its entries. -/
inductive Relisted : Tree → Tree → Prop where
  | file (content : ByteArray) : Relisted (.file content) (.file content)
  | link (target : String) : Relisted (.link target) (.link target)
  | directory {entries others : List (String × Tree)}
      (hnames : (entries.map Prod.fst).Perm (others.map Prod.fst))
      (hinner : ∀ name inner other, (name, inner) ∈ entries → (name, other) ∈ others → Relisted inner other) :
      Relisted (.directory entries) (.directory others)

theorem Relisted.symm {tree other : Tree} (h : tree.Relisted other) : other.Relisted tree := by
  induction h with
  | file content => exact .file content
  | link target => exact .link target
  | directory hnames _ ih =>
      exact .directory hnames.symm fun name inner other hinner hother => ih name other inner hother hinner

theorem isSome_lookup_iff (name : String) (entries : List (String × Tree)) :
    (entries.lookup name).isSome = true ↔ name ∈ entries.map Prod.fst := by
  rw [lookup_eq_get?]
  exact Entries.isSome_get?_iff (exact_entry name) entries

section

variable {before after node : Tree} {location : Location} {name : String} {entries others : List (String × Tree)}

/-- What a name stands for in one listing of a directory it stands for in the other. -/
theorem Relisted.lookup (h : (Tree.directory entries).Relisted (.directory others))
    (hnode : entries.lookup name = some node) : ∃ other, others.lookup name = some other ∧ node.Relisted other := by
  cases h with
  | directory hnames hinner =>
      have hmem := mem_of_lookup hnode
      have hname : name ∈ others.map Prod.fst := hnames.mem_iff.1 (List.mem_map_of_mem (f := Prod.fst) hmem)
      obtain ⟨other, hother⟩ := Option.isSome_iff_exists.1 ((isSome_lookup_iff name others).2 hname)
      exact ⟨other, hother, hinner name node other hmem (mem_of_lookup hother)⟩

/-- What stands at a location of one tree stands there in the other, but for the order. -/
theorem Relisted.exists_at? (h : before.Relisted after) (hnode : before.at? location = some node) :
    ∃ other, after.at? location = some other ∧ node.Relisted other := by
  induction location generalizing before after with
  | nil =>
      obtain rfl := Option.some.inj hnode
      exact ⟨after, rfl, h⟩
  | cons name rest ih =>
      obtain ⟨entries, inner, rfl, hlookup, hrest⟩ := exists_entry_of_at?_cons hnode
      cases h with
      | @directory _ others hnames hinner =>
          obtain ⟨outer, houter, hsame⟩ := Relisted.lookup (.directory hnames hinner) hlookup
          rw [at?_cons_directory, houter]
          exact ih hsame hrest

theorem Relisted.at?_none (h : before.Relisted after) (hnone : before.at? location = none) :
    after.at? location = none := by
  by_contra hsome
  obtain ⟨other, hother⟩ := Option.ne_none_iff_exists'.1 hsome
  obtain ⟨node, hnode, -⟩ := h.symm.exists_at? hother
  rw [hnone] at hnode
  cases hnode

theorem Relisted.at?_file {content : ByteArray} (h : before.Relisted after)
    (hfile : before.at? location = some (.file content)) : after.at? location = some (.file content) := by
  obtain ⟨other, hother, hsame⟩ := h.exists_at? hfile
  cases hsame
  exact hother

theorem Relisted.at?_link {target : String} (h : before.Relisted after)
    (hlink : before.at? location = some (.link target)) : after.at? location = some (.link target) := by
  obtain ⟨other, hother, hsame⟩ := h.exists_at? hlink
  cases hsame
  exact hother

theorem Relisted.at?_directory (h : before.Relisted after)
    (hdirectory : before.at? location = some (.directory entries)) :
    ∃ others, after.at? location = some (.directory others) ∧
      (Tree.directory entries).Relisted (.directory others) := by
  obtain ⟨other, hother, hsame⟩ := h.exists_at? hdirectory
  cases hsame with
  | directory hnames hinner => exact ⟨_, hother, .directory hnames hinner⟩

/-- A search for a path does not see the order. -/
theorem Relisted.alike (h : before.Relisted after) (location : Location) :
    Alike (before.at? location) (after.at? location) := by
  cases hnode : before.at? location with
  | none =>
      rw [h.at?_none hnode]
      exact .nothing
  | some node =>
      obtain ⟨other, hother, hsame⟩ := h.exists_at? hnode
      rw [hother]
      cases hsame with
      | file content => exact .file content content
      | link target => exact .link target
      | directory => exact .directory _ _

/-- Names stay names, and different ones. -/
theorem Relisted.wellNamed (h : before.Relisted after) (hnamed : before.WellNamed) : after.WellNamed := by
  intro location node hnode
  obtain ⟨other, hother, hsame⟩ := h.symm.exists_at? hnode
  have hentries := hnamed location other hother
  cases hsame with
  | file => trivial
  | link => trivial
  | directory hnames _ =>
      exact ⟨hnames.nodup_iff.2 hentries.1, fun name hname => hentries.2 name (hnames.mem_iff.1 hname)⟩

end

end Tree

/-! ### Where paths lead -/

namespace FileSystem

variable {before after : Tree}

/-- The search for a path ends in the same way, be it at a place or with an error. -/
theorem follow_relisted (h : before.Relisted after) (mayMiss : Bool) (links : Nat) (location : Location)
    (names : List String) :
    follow after mayMiss links location names = follow before mayMiss links location names :=
  follow_congr (fun _ _ => trivial) (fun location _ => h.alike location) trivial fun _ _ => trivial

/-- The same files, but for the order in which directories are listed. -/
structure Relisted (before after : FileSystem) : Prop where
  here : after.here = before.here
  tree : before.root.Relisted after.root
  isSealed : after.isSealed = before.isSealed

section

variable {before after : FileSystem} (h : before.Relisted after)

include h

theorem Relisted.symm : after.Relisted before :=
  ⟨h.here.symm, h.tree.symm, h.isSealed.symm⟩

theorem Relisted.locate_eq (path : Path) (mayMiss : Bool) : after.locate path mayMiss = before.locate path mayMiss := by
  simp only [locate, h.here, follow_relisted h.tree]

theorem Relisted.outerLocation_eq (path : Path) : after.outerLocation path = before.outerLocation path := by
  simp only [outerLocation, h.here, follow_relisted h.tree]
  cases pathFault? path with
  | some error => rfl
  | none =>
      cases follow before.root false greatestLinks (start before.here path.text) (parts path.text).dropLast with
      | error error => rfl
      | ok outer =>
          simp only [bind, Except.bind]
          have halike := h.tree.alike outer
          generalize before.root.at? outer = old at halike ⊢
          generalize after.root.at? outer = new at halike ⊢
          cases halike <;> rfl

/-- A path that is that of a link still is. -/
theorem Relisted.isLink_eq (path : Path) : after.isLink path = before.isLink path := by
  rw [isLink, isLink, h.outerLocation_eq]
  cases before.outerLocation path with
  | error error => rfl
  | ok outer =>
      cases (parts path.text).getLast? with
      | none => rfl
      | some name =>
          dsimp only
          have halike := h.tree.alike (outer ++ [name])
          generalize before.root.at? (outer ++ [name]) = old at halike ⊢
          generalize after.root.at? (outer ++ [name]) = new at halike ⊢
          cases halike <;> rfl

/-- Files have the same content, and reading what is no file fails for the same reason. -/
theorem Relisted.read_eq (path : Path) : after.read path = before.read path := by
  simp only [read, get, h.locate_eq]
  cases before.locate path false with
  | error error => rfl
  | ok place =>
      simp only [bind, Except.bind]
      cases hnode : before.root.at? place with
      | none => rw [h.tree.at?_none hnode]
      | some node =>
          obtain ⟨other, hother, hsame⟩ := h.tree.exists_at? hnode
          rw [hother]
          cases hsame <;> rfl

theorem Relisted.readText_eq (path : Path) : after.readText path = before.readText path := by
  simp only [readText, h.read_eq]

end

end FileSystem

/-! ### What a walk can come to -/

namespace Fragment.Search

variable {α : Type} {before after : FileSystem} {inside : List Location} {here there names : Location} {name : String}
  {found : α} {result : Except SystemError Location} {stop : Stop}

theorem Links.relisted {before after : Tree} (h : before.Relisted after) (hlinks : Links before here name result) :
    Links after here name result := by
  obtain ⟨target, hlink, hfollow⟩ := hlinks
  exact ⟨target, h.at?_link hlink, by rw [FileSystem.follow_relisted h, hfollow]⟩

theorem IsFile.relisted {before after : Tree} (h : before.Relisted after) (hfile : IsFile before here name there) :
    IsFile after here name there := by
  cases hfile with
  | file hnode => exact .file (h.at?_file hnode)
  | link hlinks hnode => exact .link (hlinks.relisted h) (h.at?_file hnode)

theorem IsDirectory.relisted (h : before.Relisted after) (hdirectory : IsDirectory before inside here name there) :
    IsDirectory after inside here name there := by
  cases hdirectory with
  | directory hnode hopen =>
      obtain ⟨others, hothers, -⟩ := h.tree.at?_directory hnode
      exact .directory hothers (h.isSealed ▸ hopen)
  | link hlinks hnode hopen hfresh =>
      obtain ⟨others, hothers, -⟩ := h.tree.at?_directory hnode
      exact .link (hlinks.relisted h.tree) hothers (h.isSealed ▸ hopen) hfresh

theorem Halts.relisted (h : before.Relisted after) (hhalts : Halts before here name stop) :
    Halts after here name stop := by
  cases hhalts with
  | lost hlinks => exact .lost (hlinks.relisted h.tree)
  | shut hnode hsealed =>
      obtain ⟨others, hothers, -⟩ := h.tree.at?_directory hnode
      exact .shut hothers (h.isSealed ▸ hsealed)
  | beyond hlinks hnode hsealed =>
      obtain ⟨others, hothers, -⟩ := h.tree.at?_directory hnode
      exact .beyond (hlinks.relisted h.tree) hothers (h.isSealed ▸ hsealed)

/-- The names that lead down to something lead there from both listings. -/
theorem Below.relisted {fits fits' : Location → String → α → Prop} (h : before.Relisted after)
    (hfits : ∀ {here name found}, fits here name found → fits' here name found)
    (hbelow : Below before fits inside here names found) : Below after fits' inside here names found := by
  induction hbelow with
  | entry hentry => exact .entry (hfits hentry)
  | enter henters _ ih => exact .enter (henters.relisted h) ih

theorem finds_iff (h : before.Relisted after) :
    Finds after inside here names there ↔ Finds before inside here names there :=
  ⟨fun hfinds => hfinds.relisted h.symm (IsFile.relisted h.symm.tree),
    fun hfinds => hfinds.relisted h (IsFile.relisted h.tree)⟩

theorem stops_iff (h : before.Relisted after) :
    Stops after inside here names stop ↔ Stops before inside here names stop :=
  ⟨fun hstops => hstops.relisted h.symm (Halts.relisted h.symm), fun hstops => hstops.relisted h (Halts.relisted h)⟩

end Fragment.Search

end Rulebook
