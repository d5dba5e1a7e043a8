import Mathlib.Data.List.Basic
import Rulebook.Proofs.Json.Pretty
import Rulebook.Report.Render

/-!
# The report as JSON

A member of an outcome is left out when there is nothing to say, and how a task ended stands beside the other members.
Nothing is lost by that: each part of an outcome is found under a name of its own. This module provides:

* `Json.member?` — the member of an object under a name, and what it is for each name of an outcome
  (`Report.Outcome.member?_json`);
* `Report.json_injective` — different reports are different trees; and
* `Report.render_json_eq_iff` — and different texts.
-/

namespace Rulebook

/-- The member of an object that has the name. -/
def Json.member? (name : String) : Json → Option Json
  | .object members => members.lookup name
  | _ => none

namespace Report

/-! ### Tasks and counters -/

theorem countJson_inj {m n : Nat} : countJson m = countJson n ↔ m = n := by
  rw [countJson, countJson, Json.number.injEq, Number.integer.injEq, Int.natCast_inj]

theorem statsJson_injective {stats other : Overlay.Stats} (h : statsJson stats = statsJson other) : stats = other := by
  obtain ⟨⟩ := stats
  obtain ⟨⟩ := other
  simpa [statsJson, countJson_inj] using h

theorem Task.json_injective {task other : Task} (h : task.json = other.json) : task = other := by
  cases task <;> cases other <;> simp [Task.json] at h ⊢
  next language other =>
    simpa using congrArg Language.ofCode? h

/-! ### Outcomes -/

theorem lookup_optionalMember {α : Type} (name other : String) (json : α → Json) (value? : Option α) :
    (optionalMember name json value?).lookup other = if other = name then value?.map json else none := by
  cases value? with
  | none => simp [optionalMember]
  | some value =>
      rw [optionalMember, List.lookup_cons]
      by_cases h : other = name
      · simp [h]
      · rw [beq_false_of_ne h, if_neg h]
        rfl

/-- Each part of an outcome is found under its name, and under no other. -/
theorem Outcome.member?_json (outcome : Outcome) :
    outcome.json.member? "task" = some outcome.task.json ∧
      outcome.json.member? "message" = outcome.message?.map .string ∧
        outcome.json.member? "detail" = outcome.detail?.map .string ∧
          outcome.json.member? "destination" = outcome.destination?.map (fun path => .string path.text) ∧
            outcome.json.member? "stats" = outcome.stats?.map statsJson := by
  obtain ⟨task, status, detail?, destination?, stats?⟩ := outcome
  cases status <;>
    simp [Outcome.json, Json.member?, Status.members, message?, List.lookup_append, lookup_optionalMember,
      List.lookup_cons]

/-- The message of a failure tells that the task failed. -/
theorem Outcome.status_eq_of_message? {outcome other : Outcome} (h : outcome.message? = other.message?) :
    outcome.status = other.status := by
  rw [message?, message?] at h
  cases hstatus : outcome.status <;> cases hother : other.status <;> simp_all

theorem Outcome.json_injective {outcome other : Outcome} (h : outcome.json = other.json) : outcome = other := by
  obtain ⟨htask, hmessage, hdetail, hdestination, hstats⟩ := outcome.member?_json
  obtain ⟨htask', hmessage', hdetail', hdestination', hstats'⟩ := other.member?_json
  rw [h] at htask hmessage hdetail hdestination hstats
  have hstring : ∀ s t, Json.string s = Json.string t → s = t := fun _ _ => Json.string.inj
  have hpath : ∀ p q : Path, Json.string p.text = Json.string q.text → p = q :=
    fun p q hpq => congrArg Path.mk (Json.string.inj hpq)
  have hmessages := Option.map_injective hstring (hmessage.symm.trans hmessage')
  rw [Outcome.mk.injEq]
  exact ⟨Task.json_injective (Option.some.inj (htask.symm.trans htask')), status_eq_of_message? hmessages,
    Option.map_injective hstring (hdetail.symm.trans hdetail'),
    Option.map_injective hpath (hdestination.symm.trans hdestination'),
    Option.map_injective (fun _ _ => statsJson_injective) (hstats.symm.trans hstats')⟩

/-! ### Reports -/

theorem json_injective {report other : Report} (h : report.json = other.json) : report = other := by
  have houtcomes : report.outcomes.map Outcome.json = other.outcomes.map Outcome.json := by
    simpa [json] using h
  have hsame : report.outcomes = other.outcomes :=
    List.map_injective_iff.2 (fun _ _ => Outcome.json_injective) houtcomes
  exact congrArg Report.mk hsame

theorem integral_optionalMember {α : Type} {json : α → Json} (h : ∀ value, (json value).Integral) (name : String)
    (value? : Option α) : ∀ member ∈ optionalMember name json value?, member.2.Integral := by
  cases value? with
  | none => exact fun member hmember => nomatch hmember
  | some value => simpa [optionalMember] using h value

/-- The only numbers of an outcome are its counters. -/
theorem Outcome.integral_json (outcome : Outcome) : outcome.json.Integral := by
  have hstring : ∀ s, (Json.string s).Integral := by simp [Json.Integral]
  have hpath : ∀ path : Path, (Json.string path.text).Integral := fun path => hstring path.text
  have hstats : ∀ stats, (statsJson stats).Integral := by simp [statsJson, countJson, Json.Integral]
  have htask : outcome.task.json.Integral := by
    cases outcome.task <;> simp [Task.json, Json.Integral]
  have hstatus : ∀ member ∈ outcome.status.members, member.2.Integral := by
    cases outcome.status <;> simp [Status.members, Json.Integral]
  rw [json, Json.Integral, List.cons_append, List.cons_append, List.cons_append, List.forall_mem_cons,
    List.forall_mem_append, List.forall_mem_append, List.forall_mem_append]
  exact ⟨htask, ⟨⟨hstatus, integral_optionalMember hstring _ _⟩, integral_optionalMember hpath _ _⟩,
    integral_optionalMember hstats _ _⟩

theorem integral_json (report : Report) : report.json.Integral := by
  simp [json, Json.Integral, Outcome.integral_json]

/-- A report is known by its JSON text: the outcomes in their order, each with its task, with how it ended, and with the
detail, the destination and the counters that it has. -/
theorem render_json_eq_iff (report other : Report) : report.render .json = other.render .json ↔ report = other := by
  refine ⟨fun h => ?_, fun h => h ▸ rfl⟩
  exact json_injective (Json.pretty_inj report.integral_json other.integral_json h)

end Report

end Rulebook
