import Rulebook.FileSystem.Tree
import Rulebook.Proofs.Entries

/-!
# Trees that grow

Making a directory and writing a file change one node of a tree and leave the others what they are: files keep their
content, links their target, and directories stay directories, whatever comes into them. This module provides:

* look-up in a tree, below a location and after `Tree.put`;
* `Tree.Changes` — what may become of one node, given whether directories may be made and files written; and
* `Tree.Grows` — every node of a tree changes so, which composes, and which `Tree.put` of a file or of an empty
  directory does (`grows_put`).
-/

namespace Rulebook

namespace Tree

/-! ### Entries of a directory -/

section Entries

variable {name other : String} {entries : List (String × Tree)}

theorem lookup_eq_get? (name : String) (entries : List (String × Tree)) :
    entries.lookup name = Entries.get? (· == ·) name entries := by
  induction entries with
  | nil => rfl
  | cons entry rest ih =>
      obtain ⟨other, tree⟩ := entry
      rw [List.lookup_cons, Entries.get?_cons, ih]
      by_cases h : other = name
      · subst h
        simp
      · rw [beq_false_of_ne (Ne.symm h), if_neg (by simpa using h)]

theorem exact_entry (name : String) : Entries.Exact (· == ·) name :=
  fun _ => beq_iff_eq

theorem lookup_put_self (node : Tree) :
    (Entries.put (· == ·) name node entries).lookup name = some node := by
  rw [lookup_eq_get?, Entries.get?_put_self (exact_entry name)]

theorem lookup_put_of_ne (node : Tree) (hne : name ≠ other) :
    (Entries.put (· == ·) name node entries).lookup other = entries.lookup other := by
  rw [lookup_eq_get?, lookup_eq_get?, Entries.get?_put_of_ne (exact_entry name) (exact_entry other) hne]

end Entries

/-! ### Look-up -/

@[simp] theorem at?_nil (tree : Tree) : tree.at? [] = some tree := rfl

theorem at?_cons (tree : Tree) (name : String) (rest : Location) :
    tree.at? (name :: rest) = (tree.entries?.bind (List.lookup name)).bind fun inner => inner.at? rest := by
  rw [at?]
  cases tree.entries?.bind (List.lookup name) <;> rfl

@[simp] theorem at?_cons_directory (entries : List (String × Tree)) (name : String) (rest : Location) :
    (directory entries).at? (name :: rest) = (entries.lookup name).bind fun inner => inner.at? rest :=
  at?_cons _ _ _

theorem at?_append (tree : Tree) (outer inner : Location) :
    tree.at? (outer ++ inner) = (tree.at? outer).bind fun node => node.at? inner := by
  induction outer generalizing tree with
  | nil => rfl
  | cons name rest ih =>
      rw [List.cons_append, at?_cons, at?_cons]
      cases tree.entries?.bind (List.lookup name) with
      | none => rfl
      | some node => exact ih node

/-- What a directory has under a name stands one step below it. -/
theorem at?_append_name {tree : Tree} {outer : Location} {entries : List (String × Tree)}
    (houter : tree.at? outer = some (.directory entries)) (name : String) :
    tree.at? (outer ++ [name]) = entries.lookup name := by
  rw [at?_append, houter, Option.bind_some, at?_cons_directory]
  cases entries.lookup name <;> rfl

/-- All that stands around a node is a directory. -/
theorem at?_outer {tree node : Tree} {outer inner : Location} (hinner : inner ≠ [])
    (h : tree.at? (outer ++ inner) = some node) : ∃ entries, tree.at? outer = some (.directory entries) := by
  obtain ⟨name, rest, rfl⟩ := List.exists_cons_of_ne_nil hinner
  rw [at?_append] at h
  cases houter : tree.at? outer with
  | none =>
      rw [houter] at h
      cases h
  | some middle =>
      rw [houter, Option.bind_some] at h
      cases middle with
      | file content => cases h
      | link target => cases h
      | directory entries => exact ⟨entries, rfl⟩

/-! ### Nodes that change -/

/-- What may become of a node. If `making`, a directory may stand where nothing was; if `writing`, a file may, or it
may get another content. -/
inductive Changes (making writing : Prop) : Option Tree → Option Tree → Prop where
  | nothing : Changes making writing none none
  | file (content : ByteArray) : Changes making writing (some (.file content)) (some (.file content))
  | link (target : String) : Changes making writing (some (.link target)) (some (.link target))
  | directory (old new : List (String × Tree)) :
      Changes making writing (some (.directory old)) (some (.directory new))
  | made (hmaking : making) (entries : List (String × Tree)) :
      Changes making writing none (some (.directory entries))
  | written (hwriting : writing) (content : ByteArray) : Changes making writing none (some (.file content))
  | overwritten (hwriting : writing) (old new : ByteArray) :
      Changes making writing (some (.file old)) (some (.file new))

section Changes

variable {making making' writing writing' : Prop} {before middle after : Option Tree}

theorem Changes.refl (node : Option Tree) : Changes making writing node node := by
  rcases node with _ | content | target | entries
  · exact .nothing
  · exact .file content
  · exact .link target
  · exact .directory entries entries

theorem Changes.mono (hmaking : making → making') (hwriting : writing → writing')
    (h : Changes making writing before after) : Changes making' writing' before after := by
  cases h with
  | nothing => exact .nothing
  | file content => exact .file content
  | link target => exact .link target
  | directory old new => exact .directory old new
  | made h entries => exact .made (hmaking h) entries
  | written h content => exact .written (hwriting h) content
  | overwritten h old new => exact .overwritten (hwriting h) old new

theorem Changes.trans (h₁ : Changes making writing before middle) (h₂ : Changes making writing middle after) :
    Changes making writing before after := by
  cases h₁ with
  | nothing => exact h₂
  | file content => exact h₂
  | link target => exact h₂
  | directory old new =>
      cases h₂
      exact .directory old _
  | made h entries =>
      cases h₂
      exact .made h _
  | written h content => cases h₂ <;> exact .written h _
  | overwritten h old new => cases h₂ <;> exact .overwritten h old _

/-- A directory stays a directory. -/
theorem Changes.exists_directory {old : List (String × Tree)}
    (h : Changes making writing (some (.directory old)) after) : ∃ new, after = some (.directory new) := by
  cases h
  exact ⟨_, rfl⟩

/-- What is there stays. -/
theorem Changes.exists_node {old : Tree} (h : Changes making writing (some old) after) : ∃ new, after = some new := by
  cases h <;> exact ⟨_, rfl⟩

/-- Links neither come nor go nor change. -/
theorem Changes.link_iff (h : Changes making writing before after) {target : String} :
    after = some (.link target) ↔ before = some (.link target) := by
  cases h <;> simp

/-- Where no file may be written, the same files stand before and after. -/
theorem Changes.file_iff (h : Changes making writing before after) (hwriting : ¬ writing) {content : ByteArray} :
    after = some (.file content) ↔ before = some (.file content) := by
  cases h with
  | written h => exact absurd h hwriting
  | overwritten h => exact absurd h hwriting
  | _ => simp

/-- Where no directory may be made, the same directories stand before and after. -/
theorem Changes.exists_directory_iff (h : Changes making writing before after) (hmaking : ¬ making) :
    (∃ new, after = some (.directory new)) ↔ ∃ old, before = some (.directory old) := by
  cases h with
  | made h => exact absurd h hmaking
  | _ => simp

end Changes

/-! ### Trees that grow -/

/-- Every node of the tree changes as is allowed at its location. -/
def Grows (making : Prop) (writing : Location → Prop) (before after : Tree) : Prop :=
  ∀ location, Changes making (writing location) (before.at? location) (after.at? location)

section Grows

variable {making making' : Prop} {writing writing' : Location → Prop} {before middle after : Tree}

theorem Grows.refl (tree : Tree) : Grows making writing tree tree :=
  fun _ => .refl _

theorem Grows.mono (hmaking : making → making') (hwriting : ∀ location, writing location → writing' location)
    (h : Grows making writing before after) : Grows making' writing' before after :=
  fun location => (h location).mono hmaking (hwriting location)

theorem Grows.trans (h₁ : Grows making writing before middle) (h₂ : Grows making writing middle after) :
    Grows making writing before after :=
  fun location => (h₁ location).trans (h₂ location)

end Grows

/-! ### Putting a node -/

/-- There is nothing below the node. -/
def Bare (tree : Tree) : Prop :=
  ∀ name rest, tree.at? (name :: rest) = none

theorem bare_file (content : ByteArray) : Bare (.file content) :=
  fun _ _ => rfl

theorem bare_directory : Bare (.directory []) :=
  fun _ _ => rfl

theorem put_cons_directory (node : Tree) {name : String} {rest : Location} (hrest : rest ≠ [])
    {entries : List (String × Tree)} {inner : Tree} (hinner : entries.lookup name = some inner) :
    node.put (name :: rest) (.directory entries) =
      .directory (Entries.put (· == ·) name (node.put rest inner) entries) := by
  obtain ⟨next, more, rfl⟩ := List.exists_cons_of_ne_nil hrest
  rw [put, hinner]
  exact hrest

/-- A directory, one step down: what it has under the first name, and where the rest leads from there. -/
theorem exists_entry_of_at?_cons {tree : Tree} {name : String} {rest : Location} {node : Tree}
    (h : tree.at? (name :: rest) = some node) :
    ∃ entries inner, tree = .directory entries ∧ entries.lookup name = some inner ∧ inner.at? rest = some node := by
  cases tree with
  | file content => cases h
  | link target => cases h
  | directory entries =>
      rw [at?_cons_directory, Option.bind_eq_some_iff] at h
      obtain ⟨inner, hlookup, hinner⟩ := h
      exact ⟨entries, inner, rfl, hlookup, hinner⟩

theorem at?_put_self {tree : Tree} {outer : Location} {entries : List (String × Tree)}
    (houter : tree.at? outer = some (.directory entries)) (name : String) (node : Tree) :
    (node.put (outer ++ [name]) tree).at? (outer ++ [name]) = some node := by
  induction outer generalizing tree with
  | nil =>
      obtain rfl := Option.some.inj houter
      rw [List.nil_append, put, at?_cons_directory, lookup_put_self]
      rfl
  | cons first rest ih =>
      obtain ⟨around, inner, rfl, hlookup, hinner⟩ := exists_entry_of_at?_cons houter
      rw [List.cons_append, put_cons_directory node (by simp) hlookup, at?_cons_directory, lookup_put_self]
      exact ih hinner

/-- A node put into a directory, where nothing stands below the node nor below the one in its place: the tree
changes there and nowhere else. -/
theorem grows_put {making : Prop} {writing : Location → Prop} {tree node : Tree} {outer : Location} {name : String}
    {entries : List (String × Tree)} (houter : tree.at? outer = some (.directory entries)) (hbare : node.Bare)
    (hold : ∀ old, entries.lookup name = some old → old.Bare)
    (hchanges : Changes making (writing (outer ++ [name])) (entries.lookup name) (some node)) :
    Grows making writing tree (node.put (outer ++ [name]) tree) := by
  induction outer generalizing tree writing with
  | nil =>
      obtain rfl := Option.some.inj houter
      intro location
      rw [List.nil_append, put]
      cases location with
      | nil => exact .directory _ _
      | cons first rest =>
          rw [at?_cons_directory, at?_cons_directory]
          by_cases hfirst : name = first
          · subst hfirst
            rw [lookup_put_self, Option.bind_some]
            cases rest with
            | nil =>
                rw [show ((entries.lookup name).bind fun inner => inner.at? []) = entries.lookup name by
                  cases entries.lookup name <;> rfl]
                exact hchanges
            | cons second rest =>
                rw [hbare, show ((entries.lookup name).bind fun inner => inner.at? (second :: rest)) = none from
                  Option.bind_eq_none_iff.2 fun old h => hold old h second rest]
                exact .nothing
          · rw [lookup_put_of_ne node hfirst]
            exact .refl _
  | cons first rest ih =>
      obtain ⟨around, inner, rfl, hlookup, hinner⟩ := exists_entry_of_at?_cons houter
      rw [List.cons_append, put_cons_directory node (by simp) hlookup]
      intro location
      cases location with
      | nil => exact .directory _ _
      | cons second more =>
          rw [at?_cons_directory, at?_cons_directory]
          by_cases hsecond : first = second
          · subst hsecond
            rw [lookup_put_self, hlookup]
            have hbelow : Grows making (fun location => writing (first :: location)) inner
                (node.put (rest ++ [name]) inner) := ih hinner hchanges
            exact hbelow more
          · rw [lookup_put_of_ne _ hsecond]
            exact .refl _

end Tree

end Rulebook
