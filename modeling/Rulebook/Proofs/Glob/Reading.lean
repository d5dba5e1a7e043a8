import Rulebook.Glob.Parser
import Rulebook.Proofs.Glob.Matching

/-!
# Patterns that begin with literal text

Characters without a meaning in patterns are read as themselves, and what is read after them and a slash stands behind
them, though the slash may become part of two stars. This module provides:

* `Glob.isPlain` — the characters without a meaning, outside of groups;
* `Glob.Reader.Moves` — what one step of the reader can do, which is all that later proofs know of it;
* `Glob.Reader.BeginsWith` — the reader has some literal text and a slash outside of all groups, which each step and so
  a run keeps (`Glob.Reader.run_begins`); and
* `Glob.eq_of_plain` and `Glob.begins_of_plain` — what the paths look like that a pattern accepts.
-/

namespace Rulebook

namespace Glob

/-- Does the character stand for itself wherever it stands outside of groups? A closing brace does not either, but
there it is a fault. -/
def isPlain (c : Char) : Bool :=
  !(c == '?' || c == '*' || c == '[' || c == '\x7b' || c == '\\')

namespace Reader

variable {r next last : Reader} {before? : Option Char} {chars rest : List Char}

/-! ### One step -/

/-- What one step can do to what has been read. -/
inductive Moves (r : Reader) : Reader → Prop where
  | push (token : Token) : Moves r (r.push token)
  | pushStars : Moves r r.pushStars
  /-- The two stars take in the slash before them. -/
  | replace {token : Token} (hslash : token.IsSlash) : Moves r (r.replaceLast token)
  | openGroup : Moves r r.openGroup
  | nextBranch (hgroup : r.inGroup = true) : Moves r r.nextBranch
  | closeGroup {next : Reader} (hclose : r.closeGroup = .ok next) : Moves r next

theorem twoStars_moves (before? : Option Char) (rest : List Char) (r : Reader) :
    Moves r (r.twoStars before? rest).1 := by
  unfold twoStars
  dsimp only
  split
  · split
    · exact .push _
    · exact .push _
    · exact .pushStars
  · split
    · exact .pushStars
    · split
      · exact .replace .anyPartsLast
      · exact .replace .anyPartsBetween
      · split
        · exact .replace .anyPartsLast
        · exact .pushStars

theorem step_moves {c : Char} {left : List Char} (h : r.step before? c rest = .ok (next, left)) : Moves r next := by
  unfold step at h
  split at h
  · obtain ⟨rfl, -⟩ := Prod.mk.inj (Except.ok.inj h)
    exact .push .any
  split at h
  · split at h
    · next more =>
        have hstars := twoStars_moves before? more r
        rwa [Except.ok.inj h] at hstars
    · obtain ⟨rfl, -⟩ := Prod.mk.inj (Except.ok.inj h)
      exact .push .star
  split at h
  · cases hclass : readClass rest with
    | error fault =>
        rw [hclass] at h
        cases h
    | ok read =>
        rw [hclass] at h
        obtain ⟨rfl, -⟩ := Prod.mk.inj (Except.ok.inj h)
        exact .push read.1
  split at h
  · obtain ⟨rfl, -⟩ := Prod.mk.inj (Except.ok.inj h)
    exact .openGroup
  split at h
  · cases hclose : r.closeGroup with
    | error fault =>
        rw [hclose] at h
        cases h
    | ok closed =>
        rw [hclose] at h
        obtain ⟨rfl, -⟩ := Prod.mk.inj (Except.ok.inj h)
        exact .closeGroup hclose
  split at h
  · next hcomma =>
      obtain ⟨rfl, -⟩ := Prod.mk.inj (Except.ok.inj h)
      exact .nextBranch hcomma.2
  split at h
  · split at h
    · cases h
    · obtain ⟨rfl, -⟩ := Prod.mk.inj (Except.ok.inj h)
      exact .push _
  · obtain ⟨rfl, -⟩ := Prod.mk.inj (Except.ok.inj h)
    exact .push _

theorem eq_nil_of_not_inGroup (h : r.inGroup = false) : r.outer = [] := by
  simpa [inGroup] using h

/-- Outside of groups a plain character is a literal. -/
theorem step_plain {c : Char} {left : List Char} (hc : isPlain c = true) (hgroup : r.inGroup = false)
    (h : r.step before? c rest = .ok (next, left)) : next = r.push (.literal c) ∧ left = rest := by
  simp only [isPlain, Bool.not_eq_true', Bool.or_eq_false_iff, beq_eq_false_iff_ne] at hc
  obtain ⟨⟨⟨⟨hany, hstar⟩, hclass⟩, hopen⟩, hescape⟩ := hc
  have houter : r.outer = [] := eq_nil_of_not_inGroup hgroup
  unfold step at h
  have hcomma : ¬ (c = ',' ∧ r.inGroup = true) := by simp [hgroup]
  rw [if_neg hany, if_neg hstar, if_neg hclass, if_neg hopen] at h
  by_cases hclose : c = '\x7d'
  · -- A brace closes no group here.
    simp only [hclose, if_true, closeGroup, houter] at h
    cases h
  · rw [if_neg hclose, if_neg hcomma, if_neg hescape] at h
    obtain ⟨rfl, rfl⟩ := Prod.mk.inj (Except.ok.inj h)
    exact ⟨rfl, rfl⟩

/-! ### The text outside of all groups -/

/-- The tokens outside of all groups, the last one first. -/
def outermost (r : Reader) : List Token :=
  match r.outer.getLast? with
  | none => r.tokens
  | some around => around.1

theorem outermost_of_not_inGroup (h : r.inGroup = false) : r.outermost = r.tokens := by
  rw [outermost, eq_nil_of_not_inGroup h]
  rfl

/-- The tokens outside of all groups begin with the characters and a slash, which may have become part of two stars. -/
def BeginsWith (chars : List Char) (r : Reader) : Prop :=
  ∃ later slash, Token.IsSlash slash ∧ r.outermost = later ++ slash :: (chars.map Token.literal).reverse

theorem BeginsWith.of_suffix (h : r.BeginsWith chars) (hsuffix : r.outermost <:+ next.outermost) :
    next.BeginsWith chars := by
  obtain ⟨later, slash, hslash, hr⟩ := h
  obtain ⟨more, hmore⟩ := hsuffix
  exact ⟨more ++ later, slash, hslash, by rw [← hmore, hr, List.append_assoc]⟩

/-- A token more is one more outside of all groups, or it is inside of one. -/
theorem outermost_suffix_push (r : Reader) (token : Token) : r.outermost <:+ (r.push token).outermost := by
  obtain ⟨tokens, finished, outer⟩ := r
  cases outer with
  | nil => exact List.suffix_cons token tokens
  | cons around outer => exact List.suffix_rfl

theorem outermost_openGroup (r : Reader) : r.openGroup.outermost = r.outermost := by
  obtain ⟨tokens, finished, outer⟩ := r
  cases outer with
  | nil => rfl
  | cons around outer =>
      simp only [outermost, openGroup, List.getLast?_cons, Option.getD_some]

theorem outermost_nextBranch (hgroup : r.inGroup = true) : r.nextBranch.outermost = r.outermost := by
  obtain ⟨tokens, finished, outer⟩ := r
  cases outer with
  | nil => cases hgroup
  | cons around outer => rfl

theorem outermost_suffix_closeGroup (hclose : r.closeGroup = .ok next) : r.outermost <:+ next.outermost := by
  obtain ⟨tokens, finished, outer⟩ := r
  cases outer with
  | nil => cases hclose
  | cons around outer =>
      obtain rfl := Except.ok.inj hclose
      cases outer with
      | nil => exact List.suffix_cons _ around.1
      | cons further outer =>
          simp only [outermost, List.getLast?_cons_cons]
          exact List.suffix_rfl

/-- The last token may be the slash itself, and then it is a token for a slash that takes its place. -/
theorem BeginsWith.replaceLast (h : r.BeginsWith chars) {token : Token} (hslash : token.IsSlash) :
    (r.replaceLast token).BeginsWith chars := by
  obtain ⟨tokens, finished, outer⟩ := r
  cases outer with
  | cons around outer =>
      -- Inside a group nothing changes outside of it.
      have hsame : (Reader.replaceLast token ⟨tokens, finished, around :: outer⟩).outermost =
          outermost ⟨tokens, finished, around :: outer⟩ := by
        unfold Reader.replaceLast
        split <;> rfl
      obtain ⟨later, slash, hslash', hr⟩ := h
      exact ⟨later, slash, hslash', hsame.trans hr⟩
  | nil =>
      obtain ⟨later, slash, hslash', hr⟩ := h
      obtain rfl : tokens = later ++ slash :: (chars.map Token.literal).reverse := hr
      unfold Reader.replaceLast
      cases later with
      | nil =>
          cases hslash' with
          | literal => exact ⟨[], token, hslash, rfl⟩
          | anyPartsLast => exact ⟨[], .anyPartsLast, .anyPartsLast, rfl⟩
          | anyPartsBetween => exact ⟨[], token, hslash, rfl⟩
      | cons first later =>
          rw [List.cons_append]
          split
          · exact ⟨first :: later, slash, hslash', rfl⟩
          · exact ⟨first :: later, slash, hslash', rfl⟩
          · next heq =>
              obtain ⟨rfl, rfl⟩ := List.cons.inj heq
              exact ⟨token :: later, slash, hslash', rfl⟩
          · next heq => cases heq

theorem Moves.begins (h : Moves r next) (hbegins : r.BeginsWith chars) : next.BeginsWith chars := by
  cases h with
  | push token => exact hbegins.of_suffix (outermost_suffix_push r token)
  | pushStars =>
      exact hbegins.of_suffix ((outermost_suffix_push r .star).trans (outermost_suffix_push _ .star))
  | replace hslash => exact hbegins.replaceLast hslash
  | openGroup => exact hbegins.of_suffix ⟨[], (outermost_openGroup r).symm⟩
  | nextBranch hgroup => exact hbegins.of_suffix ⟨[], (outermost_nextBranch hgroup).symm⟩
  | closeGroup hclose => exact hbegins.of_suffix (outermost_suffix_closeGroup hclose)

/-! ### A run -/

/-- What a run begins with it ends with. -/
theorem run_begins {text : List Char} (hbegins : r.BeginsWith chars) (h : run before? r text = .ok last) :
    last.BeginsWith chars := by
  fun_induction run before? r text with
  | case1 before? r =>
      obtain rfl := Except.ok.inj h
      exact hbegins
  | case2 before? r c after fault hstep => cases h
  | case3 before? r c after next rest hstep hlt ih => exact ih ((step_moves hstep).begins hbegins) h
  | case4 before? r c after next rest hstep hge =>
      obtain rfl := Except.ok.inj h
      exact (step_moves hstep).begins hbegins

/-- The reader after plain characters. -/
def pushAll (chars : List Char) (r : Reader) : Reader :=
  { r with tokens := (chars.map Token.literal).reverse ++ r.tokens }

/-- A run takes plain characters one by one. -/
theorem run_plain (hplain : ∀ c ∈ chars, isPlain c = true) (hgroup : r.inGroup = false)
    (h : run before? r (chars ++ rest) = .ok last) : ∃ before?, run before? (r.pushAll chars) rest = .ok last := by
  induction chars generalizing before? r with
  | nil => exact ⟨before?, h⟩
  | cons c chars ih =>
      have hpushed : (r.push (.literal c)).inGroup = false := hgroup
      rw [List.cons_append, run] at h
      cases hstep : r.step before? c (chars ++ rest) with
      | error fault =>
          rw [hstep] at h
          cases h
      | ok result =>
          obtain ⟨next, left⟩ := result
          obtain ⟨rfl, rfl⟩ := step_plain (hplain c List.mem_cons_self) hgroup hstep
          rw [hstep] at h
          simp only [List.length_cons, Nat.lt_succ_self, dif_pos] at h
          obtain ⟨between?, hrun⟩ := ih (fun c hc => hplain c (List.mem_cons_of_mem _ hc)) hpushed h
          refine ⟨between?, ?_⟩
          rw [← hrun]
          simp [pushAll, push]

end Reader

/-! ### Patterns -/

variable {pattern path : String} {chars rest : List Char} {glob : Glob}

/-- The tokens of a pattern are what a run leaves outside of groups. -/
theorem exists_run_of_parse (h : parse pattern = .ok glob) :
    ∃ last, Reader.start.run none pattern.toList = .ok last ∧ last.inGroup = false ∧
      glob = ⟨last.tokens.reverse⟩ := by
  unfold parse at h
  cases hrun : Reader.start.run none pattern.toList with
  | error fault =>
      rw [hrun] at h
      cases h
  | ok last =>
      simp only [hrun, bind, Except.bind] at h
      cases hgroup : last.inGroup with
      | true =>
          rw [hgroup] at h
          cases h
      | false =>
          rw [hgroup] at h
          exact ⟨last, rfl, hgroup, (Except.ok.inj h).symm⟩

/-- A pattern of plain characters accepts their text only. -/
theorem eq_of_plain (hpattern : pattern.toList = chars) (hplain : ∀ c ∈ chars, isPlain c = true)
    (hparse : parse pattern = .ok glob) (haccepts : glob.accepts path = true) : path.toList = chars := by
  obtain ⟨last, hrun, -, rfl⟩ := exists_run_of_parse hparse
  rw [hpattern, ← List.append_nil chars] at hrun
  obtain ⟨before?, hlast⟩ := Reader.run_plain hplain rfl hrun
  rw [Reader.run] at hlast
  obtain rfl := Except.ok.inj hlast
  refine eq_of_accepts_literals ?_
  simpa [Reader.pushAll, Reader.start] using haccepts

/-- A pattern that begins with plain characters and a slash accepts only what begins so. -/
theorem begins_of_plain (hpattern : pattern.toList = chars ++ '/' :: rest) (hplain : ∀ c ∈ chars, isPlain c = true)
    (hparse : parse pattern = .ok glob) (haccepts : glob.accepts path = true) : chars ++ ['/'] <+: path.toList := by
  obtain ⟨last, hrun, hgroup, rfl⟩ := exists_run_of_parse hparse
  have hplain' : ∀ c ∈ chars ++ ['/'], isPlain c = true := by
    intro c hc
    rcases List.mem_append.1 hc with hc | hc
    · exact hplain c hc
    · rw [List.mem_singleton.1 hc]
      rfl
  rw [hpattern, List.append_cons] at hrun
  obtain ⟨before?, hlast⟩ := Reader.run_plain hplain' rfl hrun
  have hstart : (Reader.start.pushAll (chars ++ ['/'])).BeginsWith chars :=
    ⟨[], .literal '/', .literal, by simp [Reader.pushAll, Reader.start, Reader.outermost]⟩
  obtain ⟨later, slash, hslash, htokens⟩ := Reader.run_begins hstart hlast
  rw [Reader.outermost_of_not_inGroup hgroup] at htokens
  have hreads : accepts ⟨chars.map Token.literal ++ slash :: later.reverse⟩ path = true := by
    simpa [htokens] using haccepts
  exact begins_of_accepts hslash hreads

end Glob

end Rulebook
