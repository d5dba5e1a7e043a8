import Rulebook.Proofs.Json.Text

/-!
# What an indented text says of its tree

The text with one item a line determines its tree, if all numbers of the tree are integers. As for the text without
blanks, the proof takes a text apart from the left; here a scalar ends with the item or with the line. This module
provides:

* `Json.Integral` — all numbers of a tree are integers;
* `Json.ItemEnds` — a text goes on as one can behind an item, and what is behind a scalar tells where it ends
  (`Json.scalar_inj`);
* `Json.block_inj` — brackets around items are taken apart if each item is; and
* `Json.prettyChars_inj` — the induction over a tree that puts these together, and `Json.pretty_inj`.
-/

namespace Rulebook

namespace Json

/-- All numbers of the tree are integers. -/
def Integral : Json → Prop
  | .number n => ∃ i, n = .integer i
  | .array items => ∀ item ∈ items, item.Integral
  | .object members => ∀ member ∈ members, member.2.Integral
  | _ => True
termination_by j => sizeOf j
decreasing_by
  · exact Nat.lt_of_lt_of_le (List.sizeOf_lt_of_mem ‹_›) (by simp)
  · exact Nat.lt_of_lt_of_le (sizeOf_lt_of_mem_members ‹_›) (by simp)

/-! ### Scalars -/

/-- Does the character stand behind an item, before the next one or at the end of the line? -/
def isItemEnd (c : Char) : Bool :=
  c = ',' || c = '\n'

/-- The text ends here or goes on behind an item. -/
def ItemEnds (rest : List Char) : Prop :=
  ∀ c ∈ rest.head?, isItemEnd c = true

theorem not_itemEnd_of_all {chars : List Char} (h : (chars.all fun c => !isItemEnd c) = true) :
    ∀ c ∈ chars, isItemEnd c = false := by
  simpa using h

theorem itemEnds_nil : ItemEnds [] := fun _ hc => by cases hc

theorem itemEnds_cons {c : Char} (h : isItemEnd c = true) (rest : List Char) : ItemEnds (c :: rest) := by
  intro c' hc'
  rwa [← Option.some.inj hc']

theorem IsNumeral.not_itemEnd {c : Char} (h : IsNumeral c) : isItemEnd c = false := by
  rcases h with hdigit | hsign
  · cases hend : isItemEnd c with
    | false => rfl
    | true =>
        rw [isItemEnd, Bool.or_eq_true, decide_eq_true_iff, decide_eq_true_iff] at hend
        rcases hend with rfl | rfl <;> cases hdigit
  · exact (not_itemEnd_of_all (by decide) : ∀ c ∈ signs, isItemEnd c = false) c hsign

/-- A scalar without quotes shows no end of an item. -/
theorem not_itemEnd_of_scalar {j : Json} (hopening : opening? j = none) :
    ∀ c ∈ compactChars j, isItemEnd c = false := by
  cases j with
  | null => exact not_itemEnd_of_all (by decide)
  | bool b => exact not_itemEnd_of_all (by cases b <;> decide)
  | number n =>
      rw [compactChars]
      rcases numberChars_cases n with hnull | ⟨-, hnumerals⟩
      · rw [hnull]
        exact not_itemEnd_of_all (by decide)
      · exact fun c hc => (hnumerals c hc).not_itemEnd
  | _ => cases hopening

/-- The integer that is written so. -/
def readInteger : List Char → Int
  | '-' :: digits => -(Nat.ofDigitChars 10 digits 0 : Int)
  | digits => (Nat.ofDigitChars 10 digits 0 : Int)

theorem readInteger_toString (i : Int) : readInteger (toString i).toList = i := by
  have hdigits : ∀ n : Nat, Nat.ofDigitChars 10 (Nat.toDigits 10 n) 0 = n := fun n => Nat.ofDigitChars_ten_toDigits
  rw [Int.toString_eq_repr, Int.repr_eq_if]
  split
  · next hpos =>
      rw [Nat.toList_repr, readInteger.eq_2, hdigits, Int.toNat_of_nonneg hpos]
      -- No digit is the sign.
      intro digits h
      have hsign : '-' ∈ Nat.toDigits 10 i.toNat := h ▸ List.mem_cons_self
      cases Nat.isDigit_of_mem_toDigits (by decide) (by decide) hsign
  · next hneg =>
      rw [String.toList_append, Nat.toList_repr]
      show -(Nat.ofDigitChars 10 (Nat.toDigits 10 _) 0 : Int) = i
      rw [hdigits]
      omega

/-- No integer is written like another scalar. -/
theorem numberChars_ne_word {word : List Char} (i : Int) (hword : word.any fun c => !c.isDigit && !signs.contains c) :
    numberChars (.integer i) ≠ word := by
  rintro rfl
  obtain ⟨c, hc, hplain⟩ := List.any_eq_true.1 hword
  rw [Bool.and_eq_true, Bool.not_eq_true', Bool.not_eq_true'] at hplain
  rcases (numerals_int i).2 c hc with hdigit | hsign
  · exact Bool.false_ne_true (hplain.1.symm.trans hdigit)
  · exact Bool.false_ne_true (hplain.2.symm.trans (List.contains_iff_mem.2 hsign))

theorem scalar_eq {j j' : Json} (hj : j.Integral) (hj' : j'.Integral) (hopening : opening? j = none)
    (hopening' : opening? j' = none) (h : compactChars j = compactChars j') : j = j' := by
  cases j with
  | null =>
      cases j' with
      | null => rfl
      | bool b => cases b <;> exact absurd h (by decide)
      | number n =>
          rw [Integral] at hj'
          obtain ⟨i, rfl⟩ := hj'
          exact absurd h.symm (numberChars_ne_word i (by decide))
      | _ => cases hopening'
  | bool b =>
      cases j' with
      | null => cases b <;> exact absurd h (by decide)
      | bool b' =>
          have htext : ∀ b b', (Value.boolText b).toList = (Value.boolText b').toList → b = b' := by decide
          rw [htext b b' h]
      | number n =>
          rw [Integral] at hj'
          obtain ⟨i, rfl⟩ := hj'
          exact absurd h.symm (numberChars_ne_word i (by cases b <;> decide))
      | _ => cases hopening'
  | number n =>
      rw [Integral] at hj
      obtain ⟨i, rfl⟩ := hj
      cases j' with
      | null => exact absurd h (numberChars_ne_word i (by decide))
      | bool b => exact absurd h (numberChars_ne_word i (by cases b <;> decide))
      | number n =>
          rw [Integral] at hj'
          obtain ⟨i', rfl⟩ := hj'
          have hread : readInteger (toString i).toList = readInteger (toString i').toList := congrArg readInteger h
          rw [readInteger_toString, readInteger_toString] at hread
          rw [hread]
      | _ => cases hopening'
  | _ => cases hopening

/-! ### Items on lines of their own -/

theorem prettyItems_eq_map (depth : Nat) (items : List Json) :
    prettyItems depth items = items.map (prettyChars depth) := by
  induction items with
  | nil => rfl
  | cons item rest ih => rw [prettyItems, ih, List.map_cons]

/-- A member as text, `depth` levels in. -/
def prettyMember (depth : Nat) (member : String × Json) : List Char :=
  quote member.1 ++ ':' :: ' ' :: prettyChars depth member.2

theorem prettyMembers_eq_map (depth : Nat) (members : List (String × Json)) :
    prettyMembers depth members = members.map (prettyMember depth) := by
  induction members with
  | nil => rfl
  | cons member rest ih =>
      obtain ⟨name, j⟩ := member
      rw [prettyMembers, ih, List.map_cons, prettyMember]

/-- Brackets around texts are taken apart if each text is. No text starts with the end of a line, and no bracket is
one. -/
theorem block_inj {α : Type} {text : α → List Char} {depth : Nat} {left right : Char} {first second : List α}
    {r r' : List Char} (hright : right ≠ '\n') (hstart : ∀ a, ∃ c tail, text a = c :: tail ∧ c ≠ '\n')
    (hagree : ∀ a ∈ first, ∀ a' ∈ second, ∀ s s', ItemEnds s → ItemEnds s' → text a ++ s = text a' ++ s' →
      a = a' ∧ s = s')
    (h : block depth left right (first.map text) ++ r = block depth left right (second.map text) ++ r') :
    first = second ∧ r = r' := by
  have hblock : ∀ (a : α) (others : List α) (rest : List Char),
      block depth left right ((a :: others).map text) ++ rest =
        left :: (newLine (depth + 1) ++ (separated (',' :: newLine (depth + 1)) ((a :: others).map text) ++
          (newLine depth ++ right :: rest))) := by
    intro a others rest
    rw [block, if_neg (by simp)]
    simp
  cases first with
  | nil =>
      cases second with
      | nil => exact ⟨rfl, List.append_cancel_left h⟩
      | cons b second =>
          rw [hblock] at h
          exact absurd (List.cons.inj (List.cons.inj h).2).1 hright
  | cons a first =>
      cases second with
      | nil =>
          rw [hblock] at h
          exact absurd (List.cons.inj (List.cons.inj h).2).1.symm hright
      | cons b second =>
          rw [hblock, hblock, List.cons_inj_right, List.append_cancel_left_eq] at h
          have hpart : ∀ a rest last, text a ++ rest ≠ newLine depth ++ last := by
            intro a rest last heq
            obtain ⟨c, tail, htext, hc⟩ := hstart a
            rw [htext] at heq
            exact hc (List.cons.inj heq).1
          have hcomma : ∀ rest last, ',' :: newLine (depth + 1) ++ rest ≠ newLine depth ++ last :=
            fun rest last heq => absurd (List.cons.inj heq).1 (by decide)
          have hends : ∀ last, ItemEnds (newLine depth ++ last) := fun last => itemEnds_cons rfl _
          obtain ⟨hitems, hclose⟩ := separated_agree (fun rest => itemEnds_cons rfl _) (hends _) (hends _)
            (fun rest => ⟨hcomma rest _, hcomma rest _⟩) (fun a rest => ⟨hpart a rest _, hpart a rest _⟩) hagree h
          rw [List.map_id', List.map_id'] at hitems
          exact ⟨hitems, (List.cons.inj (List.append_cancel_left hclose)).2⟩

/-! ### Trees -/

theorem prettyChars_of_scalar {j : Json} (hopening : opening? j = none) (depth : Nat) :
    prettyChars depth j = compactChars j := by
  cases j with
  | array items => cases hopening
  | object members => cases hopening
  | _ => rfl

theorem head?_block (depth : Nat) (left right : Char) (parts : List (List Char)) :
    (block depth left right parts).head? = some left := by
  rw [block]
  split <;> rfl

/-- Both texts of a tree start with the same character, which is not the end of a line. -/
theorem exists_cons_prettyChars (depth : Nat) (j : Json) :
    ∃ c tail, prettyChars depth j = c :: tail ∧ c ≠ '\n' ∧ (if isMark c then some c else none) = opening? j := by
  obtain ⟨c, tail, hcompact, hopening⟩ := exists_cons_compactChars j
  have hhead : (prettyChars depth j).head? = some c := by
    rw [← List.head?_cons (a := c) (l := tail), ← hcompact]
    cases j with
    | array items => exact head?_block _ _ _ _
    | object members => exact head?_block _ _ _ _
    | _ => rfl
  obtain ⟨rest, hrest⟩ := List.head?_eq_some_iff.1 hhead
  refine ⟨c, rest, hrest, ?_, hopening⟩
  rintro rfl
  -- It would be the first character of a scalar.
  have hnone : opening? j = none := hopening.symm
  cases not_itemEnd_of_scalar hnone '\n' (hcompact ▸ List.mem_cons_self)

/-- Trees with texts that start alike are of one kind. -/
theorem opening?_eq_of_pretty {depth : Nat} {j j' : Json} {r r' : List Char}
    (h : prettyChars depth j ++ r = prettyChars depth j' ++ r') : opening? j = opening? j' := by
  obtain ⟨c, tail, hchars, -, hopening⟩ := exists_cons_prettyChars depth j
  obtain ⟨c', tail', hchars', -, hopening'⟩ := exists_cons_prettyChars depth j'
  rw [hchars, hchars'] at h
  rw [← hopening, ← hopening', (List.cons.inj h).1]

theorem scalar_inj {j j' : Json} (hj : j.Integral) (hj' : j'.Integral) (hopening : opening? j = none) {depth : Nat}
    {r r' : List Char} (hr : ItemEnds r) (hr' : ItemEnds r')
    (h : prettyChars depth j ++ r = prettyChars depth j' ++ r') : j = j' ∧ r = r' := by
  have hopening' : opening? j' = none := (opening?_eq_of_pretty h).symm.trans hopening
  rw [prettyChars_of_scalar hopening, prettyChars_of_scalar hopening'] at h
  obtain ⟨hchars, hrest⟩ := append_inj_of_kind (p := fun c => !isItemEnd c)
    (fun c hc => by simp [not_itemEnd_of_scalar hopening c hc])
    (fun c hc => by simp [not_itemEnd_of_scalar hopening' c hc]) (fun c hc => by simp [hr c hc])
    (fun c hc => by simp [hr' c hc]) h
  exact ⟨scalar_eq hj hj' hopening hopening' hchars, hrest⟩

/-- A text determines the tree that it starts with, and where that tree ends. -/
theorem prettyChars_inj {j j' : Json} (hj : j.Integral) (hj' : j'.Integral) {depth : Nat} {r r' : List Char}
    (hr : ItemEnds r) (hr' : ItemEnds r') (h : prettyChars depth j ++ r = prettyChars depth j' ++ r') :
    j = j' ∧ r = r' := by
  have hopening := opening?_eq_of_pretty h
  induction j using inductOn generalizing j' depth r r' with
  | string s =>
      cases j' with
      | string s' =>
          obtain ⟨rfl, hrest⟩ := quote_inj h
          exact ⟨rfl, hrest⟩
      | _ => simp [opening?] at hopening
  | array items ih =>
      cases j' with
      | array items' =>
          rw [Integral] at hj hj'
          rw [prettyChars, prettyChars, prettyItems_eq_map, prettyItems_eq_map] at h
          have hstart : ∀ j, ∃ c tail, prettyChars (depth + 1) j = c :: tail ∧ c ≠ '\n' := by
            intro j
            obtain ⟨c, tail, hchars, hline, -⟩ := exists_cons_prettyChars (depth + 1) j
            exact ⟨c, tail, hchars, hline⟩
          obtain ⟨rfl, hrest⟩ := block_inj (by decide) hstart
            (fun item hitem item' hitem' s s' hs hs' heq =>
              ih item hitem (hj item hitem) (hj' item' hitem') hs hs' heq (opening?_eq_of_pretty heq)) h
          exact ⟨rfl, hrest⟩
      | _ => simp [opening?] at hopening
  | object members ih =>
      cases j' with
      | object members' =>
          rw [Integral] at hj hj'
          rw [prettyChars, prettyChars, prettyMembers_eq_map, prettyMembers_eq_map] at h
          have hmembers : ∀ member ∈ members, ∀ member' ∈ members', ∀ s s', ItemEnds s → ItemEnds s' →
              prettyMember (depth + 1) member ++ s = prettyMember (depth + 1) member' ++ s' →
                member = member' ∧ s = s' := by
            intro member hmember member' hmember' s s' hs hs' heq
            rw [prettyMember, prettyMember, List.append_assoc, List.append_assoc] at heq
            obtain ⟨hname, hvalue⟩ := quote_inj heq
            have hchars := (List.cons.inj (List.cons.inj hvalue).2).2
            obtain ⟨hjson, hrest⟩ := ih member hmember (hj member hmember) (hj' member' hmember') hs hs' hchars
              (opening?_eq_of_pretty hchars)
            exact ⟨Prod.ext hname hjson, hrest⟩
          obtain ⟨rfl, hrest⟩ := block_inj (by decide) (fun member => ⟨_, _, rfl, by decide⟩) hmembers h
          exact ⟨rfl, hrest⟩
      | _ => simp [opening?] at hopening
  | _ => exact scalar_inj hj hj' rfl hr hr' h

/-- Trees of integers with one text are one tree. -/
theorem pretty_inj {j j' : Json} (hj : j.Integral) (hj' : j'.Integral) (h : j.pretty = j'.pretty) : j = j' := by
  have hchars : prettyChars 0 j ++ [] = prettyChars 0 j' ++ [] := congrArg (· ++ []) (String.ofList_injective h)
  exact (prettyChars_inj hj hj' itemEnds_nil itemEnds_nil hchars).1

end Json

end Rulebook
