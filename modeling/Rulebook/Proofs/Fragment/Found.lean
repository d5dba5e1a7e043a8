import Rulebook.Proofs.FileSystem.Directories
import Rulebook.Proofs.Fragment.Search

/-!
# Where found files are

A search gives paths. Following such a path leads to the file that the walk came to, though the walk follows links one
by one and a path is followed in one go.
-/

namespace Rulebook

namespace FileSystem

/-! ### Parts of paths -/

theorem partsFrom_append (reversed chars more : List Char) :
    partsFrom reversed (chars ++ '/' :: more) = partsFrom reversed chars ++ partsFrom [] more := by
  induction chars generalizing reversed with
  | nil => by_cases h : reversed = [] <;> simp [partsFrom, h]
  | cons c chars ih =>
      rw [List.cons_append, partsFrom, partsFrom]
      split
      · split <;> simp [ih]
      · exact ih (c :: reversed)

theorem partsFrom_of_not_mem {chars : List Char} (h : '/' ∉ chars) {reversed : List Char}
    (hne : reversed ≠ [] ∨ chars ≠ []) :
    partsFrom reversed chars = [String.ofList (reversed.reverse ++ chars)] := by
  induction chars generalizing reversed with
  | nil =>
      have hreversed : reversed ≠ [] := hne.resolve_right fun hnil => hnil rfl
      simp [partsFrom, hreversed]
  | cons c chars ih =>
      rw [List.mem_cons, not_or] at h
      rw [partsFrom, if_neg (Ne.symm h.1), ih h.2 (.inl (List.cons_ne_nil _ _))]
      simp

/-- Names with slashes between them have the names as parts. -/
theorem partsFrom_names {names : Location} (hnames : ∀ name ∈ names, IsEntryName name) :
    partsFrom [] (['/'].intercalate (names.map String.toList)) = names := by
  induction names with
  | nil => rfl
  | cons name rest ih =>
      have hname := hnames name List.mem_cons_self
      have hone : partsFrom [] name.toList = [name] := by
        rw [partsFrom_of_not_mem hname.no_slash (.inr fun h => hname.ne_empty (String.toList_inj.1 h))]
        simp
      cases rest with
      | nil => simpa using hone
      | cons next rest =>
          have hrest := ih fun other h => hnames other (List.mem_cons_of_mem _ h)
          rw [List.map_cons, List.map_cons, List.intercalate_cons_cons, List.append_assoc, List.singleton_append,
            partsFrom_append, hone, ← List.map_cons, hrest]
          rfl

/-! ### What a search does after one step -/

variable {root node : Tree} {mayMiss : Bool} {links remaining : Nat} {location middle place : Location}
  {step target : String} {names : List String}

theorem Leads.after_here (hstep : step = ".") (h : Leads root mayMiss links location (step :: names) place) :
    Leads root mayMiss links location names place := by
  cases h with
  | here _ hrest => exact hrest
  | up => exact absurd hstep (by decide)
  | missing _ hname => exact absurd hstep hname.ne_here
  | link _ hname => exact absurd hstep hname.ne_here
  | enter _ hname => exact absurd hstep hname.ne_here

theorem Leads.after_up (hstep : step = "..") (h : Leads root mayMiss links location (step :: names) place) :
    Leads root mayMiss links location.dropLast names place := by
  cases h with
  | here => exact absurd hstep (by decide)
  | up _ hrest => exact hrest
  | missing _ hname => exact absurd hstep hname.ne_up
  | link _ hname => exact absurd hstep hname.ne_up
  | enter _ hname => exact absurd hstep hname.ne_up

theorem Leads.after_entry (hhere : step ≠ ".") (hup : step ≠ "..") (hnode : root.at? (location ++ [step]) = some node)
    (hlink : ∀ target, node ≠ .link target) (h : Leads root mayMiss links location (step :: names) place) :
    Leads root mayMiss links (location ++ [step]) names place := by
  cases h with
  | here => exact absurd rfl hhere
  | up => exact absurd rfl hup
  | missing _ _ hnone => cases hnone.symm.trans hnode
  | link _ _ hother => exact absurd (Option.some.inj (hnode.symm.trans hother)) (hlink _)
  | enter _ _ _ _ hrest => exact hrest

theorem Leads.after_link (hhere : step ≠ ".") (hup : step ≠ "..")
    (hnode : root.at? (location ++ [step]) = some (.link target))
    (h : Leads root mayMiss links location (step :: names) place) :
    ∃ left, Leads root mayMiss left (start location target) (steps target ++ names) place := by
  cases h with
  | here => exact absurd rfl hhere
  | up => exact absurd rfl hup
  | missing _ _ hnone => cases hnone.symm.trans hnode
  | link _ _ hother hrest =>
      cases hother.symm.trans hnode
      exact ⟨_, hrest⟩
  | enter _ _ hother hno => exact absurd (Option.some.inj (hother.symm.trans hnode)) (hno _)

/-- Steps that a search has in common with one that ended lead to where that one ended. -/
theorem Leads.rest {outer : List String} (h : Leads root false links location outer middle)
    (hwhole : Leads root mayMiss remaining location (outer ++ names) place) :
    ∃ left, Leads root mayMiss left middle names place := by
  induction h generalizing remaining with
  | done links location => exact ⟨remaining, hwhole⟩
  | here _ _ ih => exact ih (hwhole.after_here rfl)
  | up _ _ ih => exact ih (hwhole.after_up rfl)
  | missing _ _ _ hmiss => cases hmiss
  | link _ hname hlink _ ih =>
      obtain ⟨left, hrest⟩ := hwhole.after_link hname.ne_here hname.ne_up hlink
      exact ih (List.append_assoc _ _ _ ▸ hrest)
  | enter _ hname hnode hlink _ ih => exact ih (hwhole.after_entry hname.ne_here hname.ne_up hnode hlink)

/-- A slash at the end of a path asks for a directory and leads nowhere else. -/
theorem Leads.parts {text : String} (h : Leads root false links location (steps text) place) :
    Leads root false links location (FileSystem.parts text) place := by
  rcases steps_eq text with heq | heq
  · exact heq ▸ h
  · rw [heq] at h
    obtain ⟨middle, remaining, hmiddle, hdot⟩ := h.split
    cases hdot.after_here rfl
    exact hmiddle

end FileSystem

namespace Fragment.Search

open FileSystem (Leads)

variable {fs : FileSystem} {mayMiss : Bool} {links : Nat} {inside : List Location} {here there file place : Location}
  {name : String} {names : Location}

theorem Links.after {root : Tree} (hname : FileSystem.IsEntryName name) (hlinks : Links root here name (.ok there))
    (h : Leads root mayMiss links here (name :: names) place) : ∃ left, Leads root mayMiss left there names place := by
  obtain ⟨target, hnode, hfollow⟩ := hlinks
  obtain ⟨left, hrest⟩ := h.after_link hname.ne_here hname.ne_up hnode
  exact (FileSystem.follow_eq_ok_iff.1 hfollow).rest hrest

/-- Following the names that lead a walk to a file leads to that file. -/
theorem Below.leads_eq (hfinds : Finds fs inside here names file) (hnamed : fs.root.WellNamed)
    (h : Leads fs.root mayMiss links here names place) : place = file := by
  have hnames := (hfinds.named hnamed).2
  induction hfinds generalizing links with
  | entry hfile =>
      have hname := hnames _ List.mem_cons_self
      have hend : ∀ {left : Nat} {there : Location}, Leads fs.root mayMiss left there [] place → place = there := by
        intro left there hleads
        cases hleads with
        | done => rfl
      cases hfile with
      | file hnode => exact hend (h.after_entry hname.ne_here hname.ne_up hnode fun _ h => by cases h)
      | link hlinks =>
          obtain ⟨left, hrest⟩ := hlinks.after hname h
          exact hend hrest
  | enter henters _ ih =>
      have hname := hnames _ List.mem_cons_self
      have hrest := fun other h => hnames other (List.mem_cons_of_mem _ h)
      cases henters with
      | directory hnode => exact ih (h.after_entry hname.ne_here hname.ne_up hnode fun _ h => by cases h) hrest
      | link hlinks =>
          obtain ⟨left, hleads⟩ := hlinks.after hname h
          exact ih hleads hrest

/-! ### The paths of found files -/

theorem parts_outerChars (outer : Path) (more : List Char) :
    FileSystem.partsFrom [] (outerChars outer ++ more) =
      FileSystem.parts outer.text ++ FileSystem.partsFrom [] more := by
  rw [outerChars, FileSystem.parts]
  split
  · next hend =>
      rcases Bool.or_eq_true_iff.1 hend with hempty | hslash
      · rw [List.isEmpty_iff.1 hempty]
        rfl
      · obtain ⟨before, hbefore⟩ := List.getLast?_eq_some_iff.1 (beq_iff_eq.1 hslash)
        rw [hbefore, List.append_assoc, List.singleton_append, FileSystem.partsFrom_append,
          FileSystem.partsFrom_append]
        simp [FileSystem.partsFrom]
  · rw [List.append_assoc, List.singleton_append, FileSystem.partsFrom_append]

/-- The steps of a found path are those of the root, then the names. -/
theorem steps_pathOf {location : Location} (hne : location ≠ [])
    (hnames : ∀ name ∈ location, FileSystem.IsEntryName name) (outer : Path) :
    FileSystem.steps (pathOf outer location).text = FileSystem.parts outer.text ++ location := by
  have hparts : FileSystem.parts (pathOf outer location).text = FileSystem.parts outer.text ++ location := by
    rw [FileSystem.parts, pathOf_toList hne hnames, parts_outerChars, FileSystem.partsFrom_names hnames]
  have hlast : FileSystem.endsWithSlash (pathOf outer location).text = false := by
    obtain ⟨around, name, rfl⟩ := (List.eq_nil_or_concat location).resolve_left hne
    rw [List.concat_eq_append] at hnames ⊢
    have hname := hnames name (by simp)
    have hend : name.toList.getLast? ≠ some '/' := fun h => hname.no_slash (List.mem_of_getLast? h)
    have hfull : name.toList ≠ [] := fun h => hname.ne_empty (String.toList_inj.1 h)
    rw [FileSystem.endsWithSlash, pathOf, List.foldl_append, List.foldl_cons, List.foldl_nil, join_name_toList hname,
      List.getLast?_append_of_ne_nil _ hfull]
    simpa using hend
  rw [FileSystem.steps, if_neg (Bool.eq_false_iff.1 hlast), hparts]

theorem start_pathOf {location : Location} (hne : location ≠ [])
    (hnames : ∀ name ∈ location, FileSystem.IsEntryName name) {outer : Path} (houter : outer.text ≠ "")
    (here : Location) :
    FileSystem.start here (pathOf outer location).text = FileSystem.start here outer.text := by
  have hfull : outer.text.toList ≠ [] := fun h => houter (String.toList_inj.1 h)
  have hhead : (outerChars outer).head? = outer.text.toList.head? := by
    rw [outerChars]
    split
    · rfl
    · exact List.head?_append_of_ne_nil _ hfull
  have hne' : outerChars outer ≠ [] := fun h => hfull (List.head?_eq_none_iff.1 (by rw [← hhead, h]; rfl))
  rw [FileSystem.start, FileSystem.start, pathOf_toList hne hnames, List.head?_append_of_ne_nil _ hne', hhead]

/-- A found path leads to the file that the walk came to. -/
theorem eq_of_locate_pathOf {root : Path} (hnamed : fs.root.WellNamed)
    (hroot : fs.locate root false = .ok here) (hfinds : Finds fs [here] here names file)
    (h : fs.locate (pathOf root names) mayMiss = .ok place) : place = file := by
  obtain ⟨hfault, hleadsRoot⟩ := FileSystem.locate_eq_ok_iff.1 hroot
  obtain ⟨-, hleads⟩ := FileSystem.locate_eq_ok_iff.1 h
  obtain ⟨hne, hnames⟩ := hfinds.named hnamed
  rw [steps_pathOf hne hnames, start_pathOf hne hnames (FileSystem.text_ne_empty hfault)] at hleads
  obtain ⟨left, hrest⟩ := hleadsRoot.parts.rest hleads
  exact hfinds.leads_eq hnamed hrest

end Fragment.Search

end Rulebook
