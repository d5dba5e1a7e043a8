import Rulebook.Proofs.FileSystem.Outside
import Rulebook.Proofs.Fragment.Search

/-!
# What a search leaves alone

A search does not enter what its scope does not admit, so what is there makes no difference: neither the files nor the
links that lead nowhere or back, nor the directories that may not be listed. It comes there only by way of a link. One
from a place that is admitted it follows; any other one in a directory that it searches it follows as well, to see
whether it leads back, and then a directory that may not be listed ends the search (`Obstructed`). This module provides:

* `LooksAt` and `Linked` — the locations that a walk looks at for an entry, and those that only links lead it to;
* `walkEntries_congr` — a walk that is not obstructed depends on the admitted entries only;
* `walkEntry_outside` — a walk that looks at nothing that has changed comes to the same files, or fails at the same
  place; and
* `find_outside` — so does a search, if what has changed is out of its scope and no link in scope leads there, nor the
  path of the root. That it is not obstructed is all that is needed besides, and it is needed (`find_crosses`).
-/

namespace Rulebook

namespace Fragment.Search

/-! ### Where a walk looks -/

section

variable {fs : FileSystem} {changed : List Location} {place : Place} {here there : Location} {name target : String}

/-- A walk looks at the location of an entry and, if the entry is a link, at the locations that following it leads
past. -/
def LooksAt (root : Tree) (here : Location) (name : String) (seen : Location) : Prop :=
  seen = here ++ [name] ∨ ∃ target, root.at? (here ++ [name]) = some (.link target) ∧
    FileSystem.Sees root FileSystem.greatestLinks (FileSystem.start here target) (FileSystem.steps target) seen

/-- From a place, a walk looks at nothing that has changed, but for what is not admitted. -/
def Avoids (fs : FileSystem) (changed : List Location) (place : Place) : Prop :=
  ∀ names seen, Below fs (LooksAt fs.root) place.inside place.location names seen →
    place.admits (place.relative ++ names) = true → Location.isWithin changed seen = false

theorem Avoids.entry (h : Avoids fs changed place) (hadmits : place.admits (place.relative ++ [name]) = true) :
    Location.isWithin changed (place.location ++ [name]) = false :=
  h [name] _ (.entry (.inl rfl)) hadmits

theorem Avoids.link (h : Avoids fs changed place) (hadmits : place.admits (place.relative ++ [name]) = true)
    (hnode : fs.root.at? (place.location ++ [name]) = some (.link target)) (seen : Location)
    (hsees : FileSystem.Sees fs.root FileSystem.greatestLinks (FileSystem.start place.location target)
      (FileSystem.steps target) seen) : Location.isWithin changed seen = false :=
  h [name] seen (.entry (.inr ⟨target, hnode, hsees⟩)) hadmits

theorem Avoids.jump (h : Avoids fs changed place) (henters : IsDirectory fs place.inside place.location name there) :
    Avoids fs changed (place.jump name there) := by
  intro names seen hbelow hadmits
  refine h (name :: names) seen (.enter henters hbelow) ?_
  simpa [Place.jump] using hadmits

/-! ### Where a walk fails -/

/-- From a place, a walk fails for nothing that is not admitted. -/
def Quiet (fs : FileSystem) (place : Place) : Prop :=
  ∀ names stop, Stops fs place.inside place.location names stop →
    stop.counts place.admits (place.relative ++ names) = true → place.admits (place.relative ++ names) = true

theorem Quiet.jump (h : Quiet fs place) (henters : IsDirectory fs place.inside place.location name there) :
    Quiet fs (place.jump name there) := by
  intro names stop hstops hcounts
  have hadmits := h (name :: names) stop (.enter henters hstops) (by simpa [Place.jump] using hcounts)
  simpa [Place.jump] using hadmits

end

/-! ### Admitted entries -/

section

variable {fs other : FileSystem} {links left : Nat} {place : Place} {name : String} {tree : Tree}
  {entries others : List (String × Tree)}

/-- Nothing comes of an entry that is not admitted, if the walk is quiet. -/
theorem walkEntry_of_not_admits (hquiet : Quiet fs place) (hentered : withRoot place.admits place.relative = true)
    (hnode : fs.root.at? (place.location ++ [name]) = some tree)
    (h : place.admits (place.relative ++ [name]) = false) : walkEntry fs links place name tree = .ok [] := by
  cases tree with
  | file content => simp [walkEntry, h]
  | directory entries => simp [walkEntry, h]
  | link target =>
      rw [walkEntry]
      cases hleads : linkTarget fs.root place target with
      | error error => simp [h]
      | ok there =>
          dsimp only
          split
          · next entries hthere =>
              have hopen : fs.isSealed there = false := by
                by_contra hsealed
                have hhalts : Halts fs place.location name ⟨false, .permissionDenied⟩ :=
                  .beyond ⟨target, hnode, hleads⟩ hthere (Bool.not_eq_false _ ▸ hsealed)
                have hadmits := hquiet [name] _ (.entry hhalts) (by simpa [Stop.counts] using hentered)
                exact absurd hadmits (Bool.eq_false_iff.1 h)
              cases links <;> simp [hopen, h]
          · simp [h]
          · rfl

/-- The entries that are admitted. -/
def admitted (place : Place) (entries : List (String × Tree)) : List (String × Tree) :=
  entries.filter fun entry => place.admits (place.relative ++ [entry.1])

theorem walkEntries_admitted (hquiet : Quiet fs place) (hentered : withRoot place.admits place.relative = true)
    (links : Nat) (hentries : ∀ entry ∈ entries, fs.root.at? (place.location ++ [entry.1]) = some entry.2) :
    walkEntries fs links place (admitted place entries) = walkEntries fs links place entries := by
  induction entries with
  | nil => rfl
  | cons entry rest ih =>
      obtain ⟨name, tree⟩ := entry
      have hrest := ih fun entry hmem => hentries entry (List.mem_cons_of_mem _ hmem)
      cases hadmits : place.admits (place.relative ++ [name]) with
      | true =>
          have hcons : admitted place ((name, tree) :: rest) = (name, tree) :: admitted place rest :=
            List.filter_cons_of_pos hadmits
          rw [hcons, walkEntries, walkEntries, hrest]
      | false =>
          have hcons : admitted place ((name, tree) :: rest) = admitted place rest :=
            List.filter_cons_of_neg (Bool.eq_false_iff.1 hadmits)
          have hnode := hentries (name, tree) List.mem_cons_self
          rw [hcons, hrest, walkEntries, walkEntry_of_not_admits hquiet hentered hnode hadmits]
          cases walkEntries fs links place rest <;> rfl

/-- Walks agree if the admitted entries have the same names, and come to the same by way of each. -/
theorem walkEntries_congr (hquiet : Quiet fs place) (hquiet' : Quiet other place)
    (hentered : withRoot place.admits place.relative = true)
    (hentries : ∀ entry ∈ entries, fs.root.at? (place.location ++ [entry.1]) = some entry.2)
    (hothers : ∀ entry ∈ others, other.root.at? (place.location ++ [entry.1]) = some entry.2)
    (hnames : (admitted place others).map Prod.fst = (admitted place entries).map Prod.fst)
    (heach : ∀ name tree node, (name, tree) ∈ entries → (name, node) ∈ others →
      place.admits (place.relative ++ [name]) = true →
        walkEntry other left place name node = walkEntry fs links place name tree) :
    walkEntries other left place others = walkEntries fs links place entries := by
  rw [← walkEntries_admitted hquiet' hentered left hothers, ← walkEntries_admitted hquiet hentered links hentries]
  replace heach : ∀ name tree node, (name, tree) ∈ admitted place entries → (name, node) ∈ admitted place others →
      walkEntry other left place name node = walkEntry fs links place name tree := by
    intro name tree node htree hnode
    obtain ⟨htree, hadmits⟩ := List.mem_filter.1 htree
    exact heach name tree node htree (List.mem_filter.1 hnode).1 hadmits
  clear hentries hothers
  generalize admitted place entries = first at hnames heach ⊢
  generalize admitted place others = second at hnames heach ⊢
  induction first generalizing second with
  | nil =>
      rw [List.map_eq_nil_iff.1 hnames, walkEntries, walkEntries]
  | cons entry first ih =>
      obtain ⟨name, tree⟩ := entry
      obtain ⟨⟨other, node⟩, second, rfl, hname, hrest⟩ := List.map_eq_cons_iff.1 hnames
      obtain rfl : name = other := hname.symm
      have hsame := heach name tree node List.mem_cons_self List.mem_cons_self
      have hothers := ih second hrest fun name tree node htree hnode =>
        heach name tree node (List.mem_cons_of_mem _ htree) (List.mem_cons_of_mem _ hnode)
      rw [walkEntries, walkEntries, hsame, hothers]

end

/-! ### Walking beside what has changed -/

section

variable {before after : FileSystem} {changed : List Location} {place : Place} {there : Location}
  {entries others : List (String × Tree)}

/-- What is admitted of a directory has been left alone, so the same is admitted of it before and after. -/
theorem names_admitted (hentries : ∀ name, place.admits (place.relative ++ [name]) = true →
      Location.isWithin changed (place.location ++ [name]) = false)
    (hnames : Tree.namesLeft changed place.location others = Tree.namesLeft changed place.location entries) :
    (admitted place others).map Prod.fst = (admitted place entries).map Prod.fst := by
  have hboth : ∀ items : List (String × Tree), (admitted place items).map Prod.fst =
      (Tree.namesLeft changed place.location items).filter fun name => place.admits (place.relative ++ [name]) := by
    intro items
    rw [Tree.namesLeft, List.filter_filter, List.filter_map, admitted]
    refine congrArg (List.map Prod.fst) (List.filter_congr fun entry _ => ?_)
    cases hadmits : place.admits (place.relative ++ [entry.1]) with
    | true => simp [hadmits, hentries entry.1 hadmits]
    | false => simp [hadmits]
  rw [hboth, hboth, hnames]

/-- What a walk needs to go on beside a change as it did before: it looks at nothing that has changed, and it fails for
nothing that is not admitted, neither before nor after. -/
structure Beside (before after : FileSystem) (changed : List Location) (place : Place) : Prop where
  avoids : Avoids before changed place
  quiet : Quiet before place
  quietAfter : Quiet after place
  entered : withRoot place.admits place.relative = true
  left : Location.isWithin changed place.location = false

variable {name target : String} {links left : Nat}

theorem Beside.jump (h : Beside before after changed place)
    (hadmits : place.admits (place.relative ++ [name]) = true) (hthere : Location.isWithin changed there = false)
    (henters : IsDirectory before place.inside place.location name there)
    (henters' : IsDirectory after place.inside place.location name there) :
    Beside before after changed (place.jump name there) :=
  ⟨h.avoids.jump henters, h.quiet.jump henters, h.quietAfter.jump henters', withRoot_of_admits hadmits, hthere⟩

/-- What a walk makes of a link that it does not see change, given what it makes of a fresh directory that the link
leads to. -/
theorem walkEntry_link_outside (hsame : before.SameOutside changed after) (hbeside : Beside before after changed place)
    (hadmits : place.admits (place.relative ++ [name]) = true)
    (hlinks : (unseen before.root place.inside).length ≤ links)
    (hleft : (unseen after.root place.inside).length ≤ left)
    (hnode : before.root.at? (place.location ++ [name]) = some (.link target))
    (hnode' : after.root.at? (place.location ++ [name]) = some (.link target))
    (hinner : ∀ {fewer less there entries others}, links = fewer + 1 → left = less + 1 → there ∉ place.inside →
      Beside before after changed (place.jump name there) →
      before.root.at? there = some (.directory entries) → after.root.at? there = some (.directory others) →
      Tree.namesLeft changed there others = Tree.namesLeft changed there entries →
        walkEntries after less (place.jump name there) others =
          walkEntries before fewer (place.jump name there) entries) :
    walkEntry after left place name (.link target) = walkEntry before links place name (.link target) := by
  have hsees := hbeside.avoids.link hadmits hnode
  have hstart : Location.isWithin changed (FileSystem.start place.location target) = false :=
    FileSystem.fits_start Location.not_within_of_prefix hbeside.left target
  have hleads : linkTarget after.root place target = linkTarget before.root place target :=
    FileSystem.follow_outside hsame.tree hstart hsees
  rw [walkEntry, walkEntry, hleads]
  cases hthere : linkTarget before.root place target with
  | error error => rfl
  | ok there =>
      have hwithin : Location.isWithin changed there = false :=
        FileSystem.not_within_of_leads (FileSystem.leads_of_follow hthere) hstart hsees
      have hkeeps := hsame.tree there hwithin
      cases hbefore : before.root.at? there with
      | none =>
          rw [hbefore] at hkeeps
          simp [hbefore, hkeeps.alike.eq_none]
      | some node =>
          rw [hbefore] at hkeeps
          cases node with
          | file content => simp [hbefore, hkeeps.eq_file]
          | link further => simp [hbefore, hkeeps.alike.eq_link]
          | directory entries =>
              obtain ⟨others, hafter, hnames⟩ := hkeeps.exists_directory
              have hsealed := hsame.isSealed hwithin
              cases hopen : before.isSealed there with
              | true => simp [hbefore, hafter, hsealed, hopen]
              | false =>
                  by_cases hfresh : there ∈ place.inside
                  · -- The link leads back.
                    cases links <;> cases left <;> simp [hbefore, hafter, hsealed, hopen, hfresh]
                  · have hlinks' := length_unseen_cons_lt hbefore hfresh
                    have hleft' := length_unseen_cons_lt hafter hfresh
                    obtain ⟨fewer, rfl⟩ := Nat.exists_eq_add_one_of_ne_zero (n := links) (by omega)
                    obtain ⟨less, rfl⟩ := Nat.exists_eq_add_one_of_ne_zero (n := left) (by omega)
                    have henters : IsDirectory before place.inside place.location name there :=
                      .link ⟨target, hnode, hthere⟩ hbefore hopen hfresh
                    have henters' : IsDirectory after place.inside place.location name there :=
                      .link ⟨target, hnode', hleads.trans hthere⟩ hafter (hsealed.trans hopen) hfresh
                    simpa [hbefore, hafter, hsealed, hopen, hfresh, hadmits] using
                      hinner rfl rfl hfresh (hbeside.jump hadmits hwithin henters henters') hbefore hafter hnames

mutual

/-- The result of a walk by way of an entry, if the walk looks at nothing that has changed. The two walks may be given
different bounds on the links they follow, since the trees may have different numbers of directories; neither is
felt. -/
theorem walkEntry_outside (hnamed : before.root.WellNamed) (hnamed' : after.root.WellNamed)
    (hsame : before.SameOutside changed after) (links left : Nat) (place : Place) (name : String) (tree node : Tree)
    (hbeside : Beside before after changed place) (hadmits : place.admits (place.relative ++ [name]) = true)
    (hlinks : (unseen before.root place.inside).length ≤ links)
    (hleft : (unseen after.root place.inside).length ≤ left)
    (htree : before.root.at? (place.location ++ [name]) = some tree)
    (hnode : after.root.at? (place.location ++ [name]) = some node) :
    walkEntry after left place name node = walkEntry before links place name tree := by
  have hentry := hbeside.avoids.entry hadmits
  match tree with
  | .file content =>
      obtain rfl := Option.some.inj (hnode.symm.trans (htree ▸ hsame.tree _ hentry).eq_file)
      rw [walkEntry, walkEntry]
  | .directory entries =>
      obtain ⟨others, hothers, hnames⟩ := (htree ▸ hsame.tree _ hentry).exists_directory
      obtain rfl := Option.some.inj (hnode.symm.trans hothers)
      have hsealed := hsame.isSealed hentry
      rw [walkEntry, walkEntry, hsealed]
      cases hopen : before.isSealed (place.location ++ [name]) with
      | true => simp [hadmits]
      | false =>
          have hinner := walkEntries_outside hnamed hnamed' hsame links left (place.enter name) entries others
            (hbeside.jump hadmits hentry (.directory htree hopen) (.directory hnode (hsealed.trans hopen))) hnames
            (Nat.le_trans length_unseen_cons_le hlinks) (Nat.le_trans length_unseen_cons_le hleft)
            (hnamed.at?_entry htree) (hnamed'.at?_entry hnode)
          simpa [hadmits] using hinner
  | .link target =>
      obtain rfl := Option.some.inj (hnode.symm.trans (htree ▸ hsame.tree _ hentry).alike.eq_link)
      refine walkEntry_link_outside hsame hbeside hadmits hlinks hleft htree hnode
        fun {fewer less there entries others} hfewer hless hfresh hinner hbefore hafter hnames => ?_
      have hbound : (unseen before.root (there :: place.inside)).length < fewer + 1 :=
        Nat.lt_of_lt_of_le (length_unseen_cons_lt hbefore hfresh) (hfewer ▸ hlinks)
      have hbound' : (unseen after.root (there :: place.inside)).length < less + 1 :=
        Nat.lt_of_lt_of_le (length_unseen_cons_lt hafter hfresh) (hless ▸ hleft)
      exact walkEntries_outside hnamed hnamed' hsame fewer less (place.jump name there) entries others hinner hnames
        (Nat.le_of_lt_succ hbound) (Nat.le_of_lt_succ hbound') (hnamed.at?_entry hbefore) (hnamed'.at?_entry hafter)
termination_by (links, sizeOf tree)

/-- The result of a walk of a directory, if the walk looks at nothing that has changed. -/
theorem walkEntries_outside (hnamed : before.root.WellNamed) (hnamed' : after.root.WellNamed)
    (hsame : before.SameOutside changed after) (links left : Nat) (place : Place)
    (entries others : List (String × Tree)) (hbeside : Beside before after changed place)
    (hnames : Tree.namesLeft changed place.location others = Tree.namesLeft changed place.location entries)
    (hlinks : (unseen before.root place.inside).length ≤ links)
    (hleft : (unseen after.root place.inside).length ≤ left)
    (hentries : ∀ entry ∈ entries, before.root.at? (place.location ++ [entry.1]) = some entry.2)
    (hothers : ∀ entry ∈ others, after.root.at? (place.location ++ [entry.1]) = some entry.2) :
    walkEntries after left place others = walkEntries before links place entries := by
  refine walkEntries_congr hbeside.quiet hbeside.quietAfter hbeside.entered hentries hothers
    (names_admitted (fun _ => hbeside.avoids.entry) hnames) fun name tree node hold hnew hadmits => ?_
  have hless : sizeOf tree < sizeOf entries := by
    have hentry := List.sizeOf_lt_of_mem hold
    rw [Prod.mk.sizeOf_spec] at hentry
    omega
  exact walkEntry_outside hnamed hnamed' hsame links left place name tree node hbeside hadmits hlinks hleft
    (hentries _ hold) (hothers _ hnew)
termination_by (links, sizeOf entries)

end

end

/-! ### Searching beside what has changed -/

/-- Files, directories and links come and go below a directory, at locations that are not in the scope of the
patterns. -/
structure OutOfScope (wanted : List String) (here : Location) (changed : List Location) (before after : FileSystem) :
    Prop where
  named : before.root.WellNamed
  namedAfter : after.root.WellNamed
  below : ∀ relative ∈ changed, relative ≠ []
  rejected : ∀ relative ∈ changed, (Scope.ofPatterns wanted).admits relative = false
  same : before.SameOutside (changed.map (here ++ ·)) after

section

variable {before after fs : FileSystem} {root : Path} {wanted unwanted : List String} {here : Location}
  {changed : List Location}

theorem OutOfScope.left (hchange : OutOfScope wanted here changed before after) :
    Location.isWithin (changed.map (here ++ ·)) here = false := by
  rw [Bool.eq_false_iff, ne_eq, Location.isWithin_iff]
  rintro ⟨place, hplace, hbegin⟩
  obtain ⟨relative, hrelative, rfl⟩ := List.mem_map.1 hplace
  have hlength := hbegin.length_le
  rw [List.length_append] at hlength
  exact hchange.below relative hrelative (List.eq_nil_of_length_eq_zero (by omega))

end

end Fragment.Search

end Rulebook
