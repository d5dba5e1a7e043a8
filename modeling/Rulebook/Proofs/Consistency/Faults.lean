import Mathlib.Data.List.Nodup
import Rulebook.Gate
import Rulebook.Proofs.Text.Lines
import Rulebook.Report.Render

/-!
# Faults and their lines

The structural check looks at the root rule and then at three parts of each rule. This module says what a fault is
without the check, and what becomes of the faults on the way to a report:

* `Consistency.RuleFault` and `Consistency.Fault` — a part of a rule, or the root rule, is at fault;
* `Consistency.Tells` — one problem is told of each faulty site, in the order of the sites, and nothing else;
* `Consistency.tells_problems` — the check tells the faults of a rule set; and
* `Consistency.verdict_faults` — the verdict, its diagnostic and the lines of it that a report shows.

Each problem starts a line of the diagnostic, but it may take more than one: the name of a rule is shown as it is, and a
newline in it breaks the line (`Consistency.two_lines_of_broken_name`).
-/

namespace Rulebook

namespace Consistency

open Attribute (suggestionsName mosaiqueName nestedPath)

/-! ### Faults -/

/-- The parts of a rule that are checked. -/
inductive Part where
  | whole
  | suggestions
  | mosaique

/-- The parts in the order in which they are checked. -/
def Part.all : List Part :=
  [.whole, .suggestions, .mosaique]

/-- The value below all tags is no mapping. -/
def NoMapping (value : Value) : Prop :=
  ∀ entries, value.untag ≠ .mapping entries

/-- A part of a rule is at fault. -/
inductive RuleFault (name : String) : Value → Part → Problem → Prop where
  | list (items : List Value) : RuleFault name (.list items) .whole (.notRule name (.list items))
  | tagged (tag : String) (content : Value) :
      RuleFault name (.tagged tag content) .whole (.notRule name (.tagged tag content))
  | suggestions {attributes : List (Value × Value)} {value : Value}
      (hvalue : Value.lookup? (.string suggestionsName) attributes = some value) (hshape : NoMapping value) :
      RuleFault name (.mapping attributes) .suggestions (.notMapping name suggestionsName value)
  | mosaique {attributes : List (Value × Value)} {mosaique : Value}
      (hmosaique : Value.lookup? (.string mosaiqueName) attributes = some mosaique) (hshape : NoMapping mosaique) :
      RuleFault name (.mapping attributes) .mosaique (.notMapping name mosaiqueName mosaique)
  | nested {attributes fields : List (Value × Value)} {mosaique value : Value}
      (hmosaique : Value.lookup? (.string mosaiqueName) attributes = some mosaique)
      (hfields : mosaique.untag = .mapping fields)
      (hvalue : Value.lookup? (.string suggestionsName) fields = some value) (hshape : NoMapping value) :
      RuleFault name (.mapping attributes) .mosaique (.notMapping name nestedPath value)

/-- Where a rule set can be at fault. -/
inductive Site where
  | root
  | rule (name : String) (part : Part)

/-- A site of a rule set is at fault. -/
inductive Fault (root? : Option String) (rules : RuleSet) : Site → Problem → Prop where
  | root {root : String} (hroot : root? = some root) (hne : root ≠ "") (hmissing : root ∉ rules.names) :
      Fault root? rules .root (.missingRoot root)
  | rule {name : String} {rule : Value} {part : Part} {problem : Problem} (hrule : (name, rule) ∈ rules.entries)
      (hfault : RuleFault name rule part problem) : Fault root? rules (.rule name part) problem

/-- The sites of a rule set in order: the root rule, then the parts of each rule. -/
def sites (rules : RuleSet) : List Site :=
  .root :: rules.entries.flatMap fun entry => Part.all.map (.rule entry.1)

theorem Fault.mem_sites {root? : Option String} {rules : RuleSet} {site : Site} {problem : Problem}
    (h : Fault root? rules site problem) : site ∈ sites rules := by
  cases h with
  | root => exact List.mem_cons_self
  | @rule name rule part _ hrule =>
      have hpart : part ∈ Part.all := by cases part <;> simp [Part.all]
      exact List.mem_cons_of_mem _ (List.mem_flatMap.2 ⟨(name, rule), hrule, List.mem_map_of_mem hpart⟩)

/-! ### Telling faults -/

/-- One problem is told of each faulty site, in the order of the sites, and none of the others. -/
inductive Tells {σ π : Type} (fault : σ → π → Prop) : List σ → List π → Prop where
  | nil : Tells fault [] []
  | sound {site : σ} {sites : List σ} {problems : List π} (hsound : ∀ problem, ¬ fault site problem)
      (hrest : Tells fault sites problems) : Tells fault (site :: sites) problems
  | faulty {site : σ} {problem : π} {sites : List σ} {problems : List π}
      (honly : ∀ other, fault site other ↔ other = problem) (hrest : Tells fault sites problems) :
      Tells fault (site :: sites) (problem :: problems)

section Tells

variable {σ π : Type} {fault : σ → π → Prop} {sites others : List σ} {problems more : List π}

theorem Tells.append (h : Tells fault sites problems) (hmore : Tells fault others more) :
    Tells fault (sites ++ others) (problems ++ more) := by
  induction h with
  | nil => exact hmore
  | sound hsound _ ih => exact .sound hsound ih
  | faulty honly _ ih => exact .faulty honly ih

theorem Tells.mem_iff (h : Tells fault sites problems) {problem : π} :
    problem ∈ problems ↔ ∃ site ∈ sites, fault site problem := by
  induction h with
  | nil => simp
  | sound hsound _ ih => simp [ih, hsound]
  | faulty honly _ ih => simp [ih, honly]

theorem Tells.map {ρ : Type} {name : ρ → σ} {partFault : ρ → π → Prop} {parts : List ρ}
    (h : Tells partFault parts problems) (hfault : ∀ part problem, fault (name part) problem ↔ partFault part problem) :
    Tells fault (parts.map name) problems := by
  induction h with
  | nil => exact .nil
  | sound hsound _ ih => exact .sound (fun problem => mt (hfault _ problem).1 (hsound problem)) ih
  | faulty honly _ ih => exact .faulty (fun other => (hfault _ other).trans (honly other)) ih

theorem tells_flatMap {α : Type} {items : List α} {sitesOf : α → List σ} {problemsOf : α → List π}
    (h : ∀ item ∈ items, Tells fault (sitesOf item) (problemsOf item)) :
    Tells fault (items.flatMap sitesOf) (items.flatMap problemsOf) := by
  induction items with
  | nil => exact .nil
  | cons item items ih =>
      obtain ⟨hitem, hitems⟩ := List.forall_mem_cons.1 h
      exact hitem.append (ih hitems)

/-- A site with the problems that it has, at most one. -/
theorem tells_singleton {site : σ} (hmem : ∀ problem, fault site problem ↔ problem ∈ problems)
    (hone : problems.length ≤ 1) : Tells fault [site] problems := by
  match problems with
  | [] => exact .sound (fun problem hfault => List.not_mem_nil ((hmem problem).1 hfault)) .nil
  | [problem] => exact .faulty (fun other => by rw [hmem, List.mem_singleton]) .nil
  | _ :: _ :: _ => exact absurd hone (by simp)

end Tells

/-! ### The check -/

section

variable {root? : Option String} {rules : RuleSet} {name path : String} {rule value : Value} {problem : Problem}
  {attributes : List (Value × Value)}

theorem tells_rootProblems (root? : Option String) (rules : RuleSet) :
    Tells (Fault root? rules) [.root] (rootProblems root? rules) := by
  cases root? with
  | none => exact .sound nofun .nil
  | some root =>
      have hnamed : rules.contains root = decide (root ∈ rules.names) := RuleSet.contains_eq_mem root rules.entries
      rw [rootProblems, hnamed]
      refine tells_singleton (fun problem => ⟨?_, fun h => ?_⟩) (by split <;> simp)
      · rintro ⟨hroot, hne, hmissing⟩
        obtain rfl := Option.some.inj hroot
        simp [hne, hmissing]
      · obtain ⟨⟨hne, hmissing⟩, rfl⟩ : (root ≠ "" ∧ root ∉ rules.names) ∧ problem = .missingRoot root := by
          simpa using h
        exact .root rfl hne hmissing

theorem entries?_eq_some_iff {entries : List (Value × Value)} :
    value.entries? = some entries ↔ value.untag = .mapping entries := by
  rw [Value.entries?]
  cases value.untag <;> simp

theorem isMapping_eq_false_iff : value.isMapping = false ↔ NoMapping value := by
  rw [Value.isMapping, Value.entries?, NoMapping]
  cases value.untag <;> simp

theorem mem_mappingProblems_iff :
    problem ∈ mappingProblems name path value ↔ NoMapping value ∧ problem = .notMapping name path value := by
  rw [← isMapping_eq_false_iff, mappingProblems]
  cases value.isMapping <;> simp

theorem length_mappingProblems (name path : String) (value : Value) : (mappingProblems name path value).length ≤ 1 := by
  rw [mappingProblems]
  split <;> simp

theorem tells_suggestionsProblems (name : String) (attributes : List (Value × Value)) :
    Tells (RuleFault name (.mapping attributes)) [.suggestions] (suggestionsProblems name attributes) := by
  rw [suggestionsProblems]
  cases hvalue : Value.lookup? (.string suggestionsName) attributes with
  | none =>
      refine .sound ?_ .nil
      rintro problem ⟨⟩
      simp_all
  | some value =>
      refine tells_singleton (fun problem => ?_) (length_mappingProblems _ _ _)
      rw [mem_mappingProblems_iff]
      constructor
      · rintro ⟨⟩
        simp_all
      · rintro ⟨hshape, rfl⟩
        exact .suggestions hvalue hshape

/-- A mosaique is at fault itself or, being a mapping, for its suggestions. -/
theorem ruleFault_mosaique_iff {mosaique : Value}
    (hmosaique : Value.lookup? (.string mosaiqueName) attributes = some mosaique) :
    RuleFault name (.mapping attributes) .mosaique problem ↔
      match mosaique.entries? with
      | none => problem = .notMapping name mosaiqueName mosaique
      | some fields => ∃ nested, Value.lookup? (.string suggestionsName) fields = some nested ∧
          problem ∈ mappingProblems name nestedPath nested := by
  constructor
  · rintro ⟨⟩
    · next other hshape hother =>
        obtain rfl := Option.some.inj (hmosaique.symm.trans hother)
        have hnone : mosaique.entries? = none :=
          Option.eq_none_iff_forall_not_mem.2 fun fields h => hshape fields (entries?_eq_some_iff.1 h)
        rw [hnone]
    · next fields other nested hfields hnested hshape hother =>
        obtain rfl := Option.some.inj (hmosaique.symm.trans hother)
        rw [entries?_eq_some_iff.2 hfields]
        exact ⟨nested, hnested, mem_mappingProblems_iff.2 ⟨hshape, rfl⟩⟩
  · intro h
    cases hentries : mosaique.entries? with
    | none =>
        rw [hentries] at h
        have hshape : NoMapping mosaique := isMapping_eq_false_iff.1 (by rw [Value.isMapping, hentries]; rfl)
        exact h ▸ .mosaique hmosaique hshape
    | some fields =>
        rw [hentries] at h
        obtain ⟨nested, hnested, hproblem⟩ := h
        obtain ⟨hshape, rfl⟩ := mem_mappingProblems_iff.1 hproblem
        exact .nested hmosaique (entries?_eq_some_iff.1 hentries) hnested hshape

theorem tells_mosaiqueProblems (name : String) (attributes : List (Value × Value)) :
    Tells (RuleFault name (.mapping attributes)) [.mosaique] (mosaiqueProblems name attributes) := by
  cases hmosaique : Value.lookup? (.string mosaiqueName) attributes with
  | none =>
      simp only [mosaiqueProblems, hmosaique]
      refine .sound ?_ .nil
      rintro problem ⟨⟩ <;> simp_all
  | some mosaique =>
      simp only [mosaiqueProblems, hmosaique]
      refine tells_singleton (fun problem => (ruleFault_mosaique_iff hmosaique).trans ?_) ?_
      · cases mosaique.entries? with
        | none => simp
        | some fields => cases h : Value.lookup? (.string suggestionsName) fields <;> simp [h]
      · cases mosaique.entries? with
        | none => simp
        | some fields =>
            cases h : Value.lookup? (.string suggestionsName) fields with
            | none => simp [h]
            | some nested => simpa [h] using length_mappingProblems name nestedPath nested

/-- A rule that is at fault as a whole has no part that is. -/
theorem tells_whole (h : ∀ part other, RuleFault name rule part other ↔ part = .whole ∧ other = problem) :
    Tells (RuleFault name rule) Part.all [problem] := by
  have hsound : ∀ part ≠ .whole, ∀ other, ¬ RuleFault name rule part other :=
    fun part hne other hfault => hne ((h part other).1 hfault).1
  refine .faulty (fun other => ?_) (.sound (hsound _ nofun) (.sound (hsound _ nofun) .nil))
  rw [h, and_iff_right rfl]

theorem tells_ruleProblems (name : String) (rule : Value) :
    Tells (RuleFault name rule) Part.all (ruleProblems name rule) := by
  cases rule with
  | mapping attributes =>
      exact .sound nofun ((tells_suggestionsProblems name attributes).append (tells_mosaiqueProblems name attributes))
  | list items =>
      refine tells_whole fun part other => ⟨?_, ?_⟩
      · rintro ⟨⟩
        exact ⟨rfl, rfl⟩
      · rintro ⟨rfl, rfl⟩
        exact .list items
  | tagged tag content =>
      refine tells_whole fun part other => ⟨?_, ?_⟩
      · rintro ⟨⟩
        exact ⟨rfl, rfl⟩
      · rintro ⟨rfl, rfl⟩
        exact .tagged tag content
  | _ => exact .sound nofun (.sound nofun (.sound nofun .nil))

/-- The faults of a part are those of the one rule that has the name. -/
theorem fault_rule_iff (hrule : (name, rule) ∈ rules.entries) (part : Part) (problem : Problem) :
    Fault root? rules (.rule name part) problem ↔ RuleFault name rule part problem := by
  constructor
  · rintro ⟨⟩
    next other hother hfault =>
      obtain ⟨-, rfl⟩ := Prod.mk.inj (List.inj_on_of_nodup_map rules.distinct hrule hother rfl)
      exact hfault
  · exact .rule hrule

/-- The check tells the faults of a rule set. -/
theorem tells_problems (root? : Option String) (rules : RuleSet) :
    Tells (Fault root? rules) (sites rules) (problems root? rules) :=
  (tells_rootProblems root? rules).append (tells_flatMap fun entry hentry =>
    (tells_ruleProblems entry.1 entry.2).map (fault_rule_iff hentry))

theorem mem_problems_iff : problem ∈ problems root? rules ↔ ∃ site, Fault root? rules site problem := by
  rw [(tells_problems root? rules).mem_iff]
  exact exists_congr fun site => and_iff_right_of_imp Fault.mem_sites

end

/-! ### Lines -/

/-- The name that a problem shows. -/
def Problem.name : Problem → String
  | .missingRoot root => root
  | .notRule name _ => name
  | .notMapping name _ _ => name

/-- How many newlines are in a text. -/
def newlines (text : String) : Nat :=
  text.toList.count '\n'

/-- The text of problems, each on a new line. -/
def diagnostic (problems : List Problem) : String :=
  "\n".intercalate (problems.map Problem.message)

section

variable {root? : Option String} {rules : RuleSet} {problem : Problem} {problems : List Problem}

theorem newlines_append (text more : String) : newlines (text ++ more) = newlines text + newlines more := by
  rw [newlines, String.toList_append, List.count_append]
  rfl

theorem newlines_kind (value : Value) : newlines value.kind = 0 := by
  cases value <;> rw [Value.kind] <;> rfl

/-- The newlines of a problem are those of the name that it shows. -/
theorem Fault.newlines_message {site : Site} (h : Fault root? rules site problem) :
    newlines problem.message = newlines problem.name := by
  have hparts : newlines "root rule '" = 0 ∧ newlines "' is not defined" = 0 ∧ newlines "rule '" = 0 ∧
      newlines "' must be a mapping or a formula, found " = 0 ∧ newlines "': '" = 0 ∧
        newlines "' must be a mapping, found " = 0 ∧ newlines suggestionsName = 0 ∧ newlines mosaiqueName = 0 ∧
          newlines nestedPath = 0 := by
    decide
  obtain ⟨hroot, hdefined, hrule, hformula, hquote, hmapping, hsuggestions, hmosaique, hnested⟩ := hparts
  cases h with
  | root => simp [Problem.message, Problem.name, newlines_append, hroot, hdefined]
  | rule _ hfault =>
      cases hfault <;>
        simp [Problem.message, Problem.name, newlines_append, newlines_kind, hrule, hformula, hquote, hmapping,
          hsuggestions, hmosaique, hnested]

theorem endsWell_kind (value : Value) : Text.EndsWell value.kind.toList := by
  cases value <;> rw [Value.kind] <;> exact ⟨_, rfl, by decide, by decide⟩

/-- What follows a problem on the next line is not taken for a part of it. -/
theorem Problem.endsWell_message (problem : Problem) : Text.EndsWell problem.message.toList := by
  cases problem with
  | missingRoot root =>
      rw [message, String.toList_append]
      exact Text.EndsWell.append _ ⟨_, rfl, by decide, by decide⟩
  | notRule name found =>
      rw [message, String.toList_append]
      exact (endsWell_kind found).append _
  | notMapping name path found =>
      rw [message, String.toList_append]
      exact (endsWell_kind found).append _

theorem Problem.message_ne_empty (problem : Problem) : problem.message ≠ "" := by
  obtain ⟨c, hlast, -⟩ := problem.endsWell_message
  intro h
  rw [h] at hlast
  cases hlast

theorem lines_diagnostic (problems : List Problem) :
    Text.lines (diagnostic problems) = problems.flatMap fun problem => Text.lines problem.message := by
  rw [diagnostic, Text.lines_intercalate, List.flatMap_map]
  rintro _ h
  obtain ⟨problem, -, rfl⟩ := List.mem_map.1 h
  exact problem.endsWell_message

/-- There are as many lines as problems, and one more for each newline in a name. -/
theorem length_lines_diagnostic (h : ∀ problem ∈ problems, newlines problem.message = newlines problem.name) :
    (Text.lines (diagnostic problems)).length =
      problems.length + newlines (String.join (problems.map Problem.name)) := by
  rw [lines_diagnostic]
  induction problems with
  | nil => rfl
  | cons problem problems ih =>
      obtain ⟨hproblem, hproblems⟩ := List.forall_mem_cons.1 h
      have hlines : (Text.lines problem.message).length = newlines problem.name + 1 := by
        rw [← hproblem]
        exact Text.length_lines problem.endsWell_message
      rw [List.flatMap_cons, List.length_append, ih hproblems, hlines, List.length_cons, List.map_cons,
        String.join_cons, newlines_append]
      omega

/-- Problems without newlines take one line each. -/
theorem flatMap_lines (h : ∀ problem ∈ problems, newlines problem.message = 0) :
    (problems.flatMap fun problem => Text.lines problem.message) = problems.map Problem.message := by
  rw [← List.flatMap_singleton' (problems.map Problem.message), List.flatMap_map]
  refine List.flatMap_congr fun problem hproblem => ?_
  exact Text.lines_of_not_mem problem.message_ne_empty (List.count_eq_zero.1 (h problem hproblem))

theorem shownLines_evaluation (text : String) :
    Report.shownLines .evaluation text = ((Text.lines text).filter fun line => !line.isEmpty).take 9 :=
  rfl

/-- If the first nine problems take one line each, they are what a report shows. -/
theorem shownLines_diagnostic (h : ∀ problem ∈ problems.take 9, newlines problem.message = 0) :
    Report.shownLines .evaluation (diagnostic problems) = (problems.take 9).map Problem.message := by
  have hfirst := flatMap_lines h
  have hfilled : ((problems.take 9).map Problem.message).filter (fun line => !line.isEmpty) =
      (problems.take 9).map Problem.message := by
    refine List.filter_eq_self.2 ?_
    rintro _ hline
    obtain ⟨problem, -, rfl⟩ := List.mem_map.1 hline
    simp [problem.message_ne_empty]
  rw [shownLines_evaluation, lines_diagnostic]
  -- only the first nine problems can be seen: if there are more, these nine already fill the lines
  obtain hshort | hlong := Nat.le_total problems.length 9
  · rw [List.take_of_length_le hshort] at hfirst hfilled ⊢
    rw [hfirst, hfilled, List.take_of_length_le (by simpa using hshort)]
  · have hlength : ((problems.take 9).map Problem.message).length = 9 := by simp [hlong]
    conv_lhs => rw [← List.take_append_drop 9 problems]
    rw [List.flatMap_append, List.filter_append, hfirst, hfilled, List.take_left' hlength]

/-! ### The verdict -/

theorem structuralVerdict_eq_ok_iff :
    Gate.structuralVerdict root? rules = .ok () ↔ ∀ site problem, ¬ Fault root? rules site problem := by
  have hnone : Consistency.problems root? rules = [] ↔ ∀ site problem, ¬ Fault root? rules site problem := by
    simp only [List.eq_nil_iff_forall_not_mem, mem_problems_iff, not_exists]
    exact forall_comm
  rw [← hnone, Gate.structuralVerdict]
  cases Consistency.problems root? rules <;> simp

theorem failure_eq {failure : Failure} (h : Gate.structuralVerdict root? rules = .error failure) :
    failure = .evaluation (diagnostic (Consistency.problems root? rules)) := by
  rw [Gate.structuralVerdict] at h
  split at h
  · cases h
  · exact (Except.error.inj h).symm

/--
The check tells the faults of a rule set in order, and the verdict is good if there are none. If there are some, its
diagnostic has a line for each and one more for each newline in the name of a faulty rule; a report shows the first nine
faults, if their names have no newlines.
-/
theorem verdict_faults (root? : Option String) (rules : RuleSet) :
    Tells (Fault root? rules) (sites rules) (Consistency.problems root? rules) ∧
      (Gate.structuralVerdict root? rules = .ok () ↔ ∀ site problem, ¬ Fault root? rules site problem) ∧
      ∀ failure, Gate.structuralVerdict root? rules = .error failure →
        ∃ text, failure = .evaluation text ∧
          (Text.lines text).length = (Consistency.problems root? rules).length +
            newlines (String.join ((Consistency.problems root? rules).map Problem.name)) ∧
          ((∀ problem ∈ (Consistency.problems root? rules).take 9, newlines problem.name = 0) →
            Report.outcomeText (.failed .evaluation text) =
              " ❌ Rules evaluation failed:\n\n" ++
                String.join (((Consistency.problems root? rules).take 9).map fun problem =>
                  "   " ++ problem.message ++ "\n") ++ "\n") := by
  have hmessage : ∀ problem ∈ Consistency.problems root? rules,
      newlines problem.message = newlines problem.name := by
    intro problem hproblem
    obtain ⟨site, hfault⟩ := mem_problems_iff.1 hproblem
    exact hfault.newlines_message
  refine ⟨tells_problems root? rules, structuralVerdict_eq_ok_iff, fun failure hfailure =>
    ⟨_, failure_eq hfailure, length_lines_diagnostic hmessage, fun hplain => ?_⟩⟩
  have hfirst : ∀ problem ∈ (Consistency.problems root? rules).take 9, newlines problem.message = 0 :=
    fun problem hproblem => (hmessage problem (List.mem_of_mem_take hproblem)).trans (hplain problem hproblem)
  have hshown := shownLines_diagnostic hfirst
  simp only [Report.outcomeText, Report.Outcome.failed, hshown, List.map_map]
  rfl

/-- A rule with a newline in its name is one fault on two lines. -/
theorem two_lines_of_broken_name :
    let rules : RuleSet := ⟨[("a\nb", .list [.string "x"])], by decide⟩
    Consistency.problems none rules = [.notRule "a\nb" (.list [.string "x"])] ∧
      ∃ text, Gate.structuralVerdict none rules = .error (.evaluation text) ∧
        Text.lines text = ["rule 'a", "b' must be a mapping or a formula, found a list"] :=
  ⟨rfl, _, rfl, by decide +kernel⟩

end

end Consistency

end Rulebook
