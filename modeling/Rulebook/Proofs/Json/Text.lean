import Rulebook.Proofs.Members

/-!
# What a text says of its tree

The text without blanks determines a tree but for its truth values and numbers, which are written without quotes and
brackets: trees with one text have one shape (`Json.shape_eq_of_compact`), and so the same names in the same objects.
The proof takes a text apart from the left. It provides:

* `Json.readChar` — the character that an escaped text starts with, which undoes `Json.escape`;
* `Json.Unmarked` — scalars hold none of the characters that structure a text, so that the next one of these ends them;
* `Json.separated_agree` — texts with separators between them are taken apart if each of them is; and
* `Json.compactChars_agree` — the induction over a tree that puts these together.
-/

namespace Rulebook

namespace Json

/-! ### Strings -/

/-- The value of a hexadecimal digit, lower case. -/
def hexValue (c : Char) : Nat :=
  if c.isDigit then c.toNat - '0'.toNat else c.toNat - 'a'.toNat + 10

/-- The character that a text between quotes starts with, and what follows it. -/
def readChar : List Char → Option (Char × List Char)
  | '\\' :: 'b' :: rest => some ('\x08', rest)
  | '\\' :: 'f' :: rest => some ('\x0c', rest)
  | '\\' :: 'n' :: rest => some ('\n', rest)
  | '\\' :: 'r' :: rest => some ('\r', rest)
  | '\\' :: 't' :: rest => some ('\t', rest)
  | '\\' :: 'u' :: '0' :: '0' :: high :: low :: rest => some (Char.ofNat (16 * hexValue high + hexValue low), rest)
  | '\\' :: c :: rest => some (c, rest)
  | c :: rest => some (c, rest)
  | [] => none

theorem hexValue_hexDigit : ∀ n < 16, hexValue (hexDigit n) = n := by
  decide

theorem readChar_escape (c : Char) (rest : List Char) : readChar (escape c ++ rest) = some (c, rest) := by
  unfold escape
  -- Seven characters are escaped by a letter or sign of their own.
  iterate 7
    split
    · next h =>
        rw [h]
        rfl
  split
  · next h =>
      have hhigh := hexValue_hexDigit (c.toNat / 16) (by omega)
      have hlow := hexValue_hexDigit (c.toNat % 16) (by omega)
      have hvalue : 16 * (c.toNat / 16) + c.toNat % 16 = c.toNat := Nat.div_add_mod c.toNat 16
      simp only [List.cons_append, List.nil_append, readChar, hhigh, hlow, hvalue, Char.ofNat_toNat]
  · rw [List.singleton_append, readChar.eq_def]
    split <;> simp_all

theorem escape_ne_quote (c : Char) : ∃ first rest, escape c = first :: rest ∧ first ≠ '"' := by
  by_cases hplain : escape c = [c]
  · refine ⟨c, [], hplain, ?_⟩
    rintro rfl
    cases hplain
  · refine ⟨'\\', (escape c).tail, ?_, by decide⟩
    unfold escape at hplain ⊢
    repeat' split <;> simp_all

/-- An escaped text up to its quote is that of one text only. -/
theorem escaped_inj {first second r r' : List Char}
    (h : first.flatMap escape ++ '"' :: r = second.flatMap escape ++ '"' :: r') : first = second ∧ r = r' := by
  induction first generalizing second with
  | nil =>
      cases second with
      | nil => exact ⟨rfl, (List.cons.inj h).2⟩
      | cons c second =>
          obtain ⟨d, rest, hescape, hne⟩ := escape_ne_quote c
          rw [List.flatMap_cons, hescape] at h
          exact absurd (List.cons.inj h).1.symm hne
  | cons c first ih =>
      cases second with
      | nil =>
          obtain ⟨d, rest, hescape, hne⟩ := escape_ne_quote c
          rw [List.flatMap_cons, hescape] at h
          exact absurd (List.cons.inj h).1 hne
      | cons c' second =>
          have hread := congrArg readChar h
          rw [List.flatMap_cons, List.flatMap_cons, List.append_assoc, List.append_assoc, readChar_escape,
            readChar_escape, Option.some.injEq, Prod.mk.injEq] at hread
          obtain ⟨rfl, hrest⟩ := hread
          obtain ⟨rfl, rfl⟩ := ih hrest
          exact ⟨rfl, rfl⟩

theorem quote_inj {s s' : String} {r r' : List Char} (h : quote s ++ r = quote s' ++ r') : s = s' ∧ r = r' := by
  simp only [quote, List.cons_append, List.append_assoc, List.nil_append, List.cons.injEq, true_and] at h
  obtain ⟨hchars, hrest⟩ := escaped_inj h
  exact ⟨String.toList_inj.1 hchars, hrest⟩

/-! ### Scalars -/

/-- The characters that structure a text. -/
def marks : List Char :=
  ['"', ',', '[', ']', '\x7b', '\x7d']

/-- Does the character structure a text? -/
def isMark (c : Char) : Bool :=
  marks.contains c

/-- Some characters, none of which structures a text. -/
def Unmarked (chars : List Char) : Prop :=
  chars ≠ [] ∧ ∀ c ∈ chars, isMark c = false

/-- The text ends here or goes on with a character that structures it. -/
def Ends (rest : List Char) : Prop :=
  ∀ c ∈ rest.head?, isMark c = true

theorem unmarked_of_all {chars : List Char} (h : (!chars.isEmpty && chars.all fun c => !isMark c) = true) :
    Unmarked chars := by
  simpa [Unmarked] using h

theorem ends_nil : Ends [] := fun _ hc => by cases hc

theorem ends_cons {c : Char} (h : isMark c = true) (rest : List Char) : Ends (c :: rest) := by
  intro c' hc'
  rwa [← Option.some.inj hc']

/-- Where characters of a kind are followed by one of another kind or by none, they are told by the whole text. -/
theorem append_inj_of_kind {p : Char → Bool} {first second r r' : List Char} (hfirst : ∀ c ∈ first, p c = true)
    (hsecond : ∀ c ∈ second, p c = true) (hr : ∀ c ∈ r.head?, p c = false) (hr' : ∀ c ∈ r'.head?, p c = false)
    (h : first ++ r = second ++ r') : first = second ∧ r = r' := by
  have htake : ∀ {chars rest : List Char}, (∀ c ∈ chars, p c = true) → (∀ c ∈ rest.head?, p c = false) →
      (chars ++ rest).takeWhile p = chars := by
    intro chars rest hchars hrest
    rw [List.takeWhile_append_of_pos hchars]
    cases rest with
    | nil => rw [List.takeWhile_nil, List.append_nil]
    | cons c rest => rw [List.takeWhile_cons_of_neg (by simp [hrest c rfl]), List.append_nil]
  have hchars := congrArg (List.takeWhile p) h
  rw [htake hfirst hr, htake hsecond hr'] at hchars
  subst hchars
  exact ⟨rfl, List.append_cancel_left h⟩

theorem Unmarked.append_inj {first second r r' : List Char} (hfirst : Unmarked first) (hsecond : Unmarked second)
    (hr : Ends r) (hr' : Ends r') (h : first ++ r = second ++ r') : r = r' :=
  (append_inj_of_kind (p := fun c => !isMark c) (fun c hc => by simp [hfirst.2 c hc])
    (fun c hc => by simp [hsecond.2 c hc]) (fun c hc => by simp [hr c hc]) (fun c hc => by simp [hr' c hc]) h).2

/-! ### Numbers -/

/-- The characters of a number that are no digits. -/
def signs : List Char :=
  ['-', '+', '.', 'e']

/-- A character of a number. -/
def IsNumeral (c : Char) : Prop :=
  c.isDigit = true ∨ c ∈ signs

theorem IsNumeral.not_mark {c : Char} (h : IsNumeral c) : isMark c = false := by
  cases hmark : isMark c with
  | false => rfl
  | true =>
      have hmarks : (marks.all fun c => !c.isDigit && !signs.contains c) = true := by decide
      have hc := List.all_eq_true.1 hmarks c (List.contains_iff_mem.1 hmark)
      rcases h with h | h
      · rw [h] at hc
        cases hc
      · rw [List.contains_iff_mem.2 h, Bool.not_true, Bool.and_false] at hc
        cases hc

/-- Characters of a number. -/
def Numerals (chars : List Char) : Prop :=
  ∀ c ∈ chars, IsNumeral c

theorem Numerals.append {first second : List Char} (hfirst : Numerals first) (hsecond : Numerals second) :
    Numerals (first ++ second) :=
  List.forall_mem_append.2 ⟨hfirst, hsecond⟩

theorem Numerals.cons {c : Char} {rest : List Char} (hc : IsNumeral c) (hrest : Numerals rest) :
    Numerals (c :: rest) :=
  List.forall_mem_cons.2 ⟨hc, hrest⟩

theorem isNumeral_digit {c : Char} (h : c.isDigit = true) : IsNumeral c :=
  .inl h

theorem isNumeral_sign {c : Char} (h : signs.contains c = true) : IsNumeral c :=
  .inr (List.contains_iff_mem.1 h)

theorem numerals_zeros (n : Nat) : Numerals (List.replicate n '0') := by
  intro c hc
  rw [(List.mem_replicate.1 hc).2]
  exact isNumeral_digit rfl

theorem numerals_toDigits (n : Nat) : Numerals (Nat.toDigits 10 n) := fun _ h =>
  isNumeral_digit (Nat.isDigit_of_mem_toDigits (by decide) (by decide) h)

theorem numerals_int (n : Int) : (toString n).toList ≠ [] ∧ Numerals (toString n).toList := by
  rw [Int.toString_eq_repr, Int.repr_eq_if]
  split
  · rw [Nat.toList_repr]
    exact ⟨Nat.toDigits_ne_nil, numerals_toDigits _⟩
  · rw [String.toList_append, Nat.toList_repr]
    exact ⟨List.cons_ne_nil _ _, Numerals.cons (isNumeral_sign (by decide)) (numerals_toDigits _)⟩

theorem numerals_withPoint {digits : List Char} (h : Numerals digits) (whole : Int) :
    Numerals (Layout.withPoint digits whole) := by
  have hzero : IsNumeral '0' := isNumeral_digit rfl
  have hpoint : IsNumeral '.' := isNumeral_sign (by decide)
  unfold Layout.withPoint
  split
  · exact .cons hzero (.cons hpoint h)
  · next n _ =>
      have hpadded : Numerals (digits ++ List.replicate (n - digits.length) '0') := h.append (numerals_zeros _)
      refine Numerals.append (fun c hc => hpadded c (List.mem_of_mem_take hc)) (.cons hpoint ?_)
      split
      · exact .cons hzero (fun c hc => nomatch hc)
      · exact fun c hc => hpadded c (List.mem_of_mem_drop hc)
  · exact .cons hzero (.cons hpoint ((numerals_zeros _).append h))

theorem numerals_withExponent {digits : List Char} (h : Numerals digits) (layout : Layout) (power : Int) :
    Numerals (layout.withExponent digits power) := by
  unfold Layout.withExponent
  refine Numerals.append ?_ (.cons (isNumeral_sign (by decide)) (Numerals.append ?_ (numerals_int power).2))
  · split
    · next first second rest =>
        obtain ⟨hfirst, hrest⟩ := List.forall_mem_cons.1 h
        exact .cons hfirst (.cons (isNumeral_sign (by decide)) hrest)
    · exact h
  · split
    · exact .cons (isNumeral_sign (by decide)) (fun c hc => nomatch hc)
    · exact fun c hc => nomatch hc

theorem numerals_writeDecimal (layout : Layout) (d : Decimal) :
    layout.writeDecimal d ≠ [] ∧ Numerals (layout.writeDecimal d) := by
  unfold Layout.writeDecimal
  dsimp only
  generalize (if d.digits = 0 then 0 else d.exponent + Int.ofNat (Nat.toDigits 10 d.digits).length - 1) = power
  split
  · refine ⟨?_, numerals_withPoint (numerals_toDigits _) _⟩
    unfold Layout.withPoint
    split <;> simp
  · exact ⟨by simp [Layout.withExponent], numerals_withExponent (numerals_toDigits _) layout _⟩

theorem numerals_write (layout : Layout) (negative : Bool) (significand : Nat) (exponent : Int) :
    (layout.write negative significand exponent).toList ≠ [] ∧
      Numerals (layout.write negative significand exponent).toList := by
  rw [Layout.write, String.toList_ofList]
  split
  · exact ⟨List.cons_ne_nil _ _, .cons (isNumeral_sign (by decide)) (numerals_writeDecimal _ _).2⟩
  · exact numerals_writeDecimal _ _

/-- A number is written with characters of numbers, unless it is not finite. -/
theorem numberChars_cases (n : Number) :
    numberChars n = "null".toList ∨ numberChars n ≠ [] ∧ Numerals (numberChars n) := by
  cases n with
  | integer n => exact .inr (numerals_int n)
  | float x =>
      cases x with
      | finite negative significand exponent _ => exact .inr (numerals_write _ _ _ _)
      | nan => exact .inl rfl
      | infinity _ => exact .inl rfl

/-- A number is written without characters that structure a text. -/
theorem unmarked_numberChars (n : Number) : Unmarked (numberChars n) := by
  rcases numberChars_cases n with hnull | ⟨hne, hnumerals⟩
  · rw [hnull]
    exact unmarked_of_all (by decide)
  · exact ⟨hne, fun c hc => (hnumerals c hc).not_mark⟩

/-! ### Parts with separators -/

/-- What follows the first of some parts: what closes them, or a separator and the other parts. -/
def afterFirst (separator closing : List Char) (others : List (List Char)) : List Char :=
  if others.isEmpty then closing else separator ++ (separated separator others ++ closing)

theorem separated_cons (separator closing text : List Char) (others : List (List Char)) :
    separated separator (text :: others) ++ closing = text ++ afterFirst separator closing others := by
  cases others with
  | nil => rfl
  | cons other others => simp [separated, afterFirst]

/-- Texts of parts, with separators between them, agree if the texts of the parts do, where they are followed as parts
can be followed. Neither a separator nor a part starts like what closes them. -/
theorem separated_agree {α β : Type} {text : α → List Char} {shape : α → β} {ends : List Char → Prop}
    {separator closing closing' : List Char} (hseparator : ∀ rest, ends (separator ++ rest)) (hclosing : ends closing)
    (hclosing' : ends closing') (hne : ∀ rest, separator ++ rest ≠ closing ∧ separator ++ rest ≠ closing')
    (hstart : ∀ a rest, text a ++ rest ≠ closing ∧ text a ++ rest ≠ closing') {first second : List α}
    (hagree : ∀ a ∈ first, ∀ a' ∈ second, ∀ s s', ends s → ends s' → text a ++ s = text a' ++ s' →
      shape a = shape a' ∧ s = s')
    (h : separated separator (first.map text) ++ closing = separated separator (second.map text) ++ closing') :
    first.map shape = second.map shape ∧ closing = closing' := by
  have hends : ∀ {last : List Char}, ends last → ∀ others, ends (afterFirst separator last others) := by
    intro last hlast others
    rw [afterFirst]
    split
    · exact hlast
    · exact hseparator _
  induction first generalizing second with
  | nil =>
      cases second with
      | nil => exact ⟨rfl, h⟩
      | cons b second =>
          rw [List.map_cons, separated_cons] at h
          exact absurd h.symm (hstart b _).1
  | cons a first ih =>
      cases second with
      | nil =>
          rw [List.map_cons, separated_cons] at h
          exact absurd h (hstart a _).2
      | cons b second =>
          rw [List.map_cons, List.map_cons, separated_cons, separated_cons] at h
          obtain ⟨hshape, hrest⟩ := hagree a List.mem_cons_self b List.mem_cons_self _ _
            (hends hclosing (first.map text)) (hends hclosing' (second.map text)) h
          rw [List.map_cons, List.map_cons, hshape]
          have hothers := fun a ha a' ha' => hagree a (List.mem_cons_of_mem _ ha) a' (List.mem_cons_of_mem _ ha')
          -- Both texts go on with the end or both with a separator.
          cases first with
          | nil =>
              cases second with
              | nil => exact ⟨rfl, hrest⟩
              | cons b' second => exact absurd hrest.symm (hne _).1
          | cons a' first =>
              cases second with
              | nil => exact absurd hrest (hne _).2
              | cons b' second =>
                  obtain ⟨hshapes, hclose⟩ := ih hothers (List.append_cancel_left hrest)
                  exact ⟨congrArg _ hshapes, hclose⟩

/-- Parts with commas between them, up to a character that no part starts with. -/
theorem commas_agree {α β : Type} {text : α → List Char} {shape : α → β} {close : Char} (hclose : isMark close = true)
    (hcomma : close ≠ ',') (hstart : ∀ a, ∃ c tail, text a = c :: tail ∧ c ≠ close) {first second : List α}
    {r r' : List Char}
    (hagree : ∀ a ∈ first, ∀ a' s s', Ends s → Ends s' → text a ++ s = text a' ++ s' → shape a = shape a' ∧ s = s')
    (h : separated [','] (first.map text) ++ close :: r = separated [','] (second.map text) ++ close :: r') :
    first.map shape = second.map shape ∧ r = r' := by
  have hne : ∀ rest last, [','] ++ rest ≠ close :: last := fun rest last heq => hcomma (List.cons.inj heq).1.symm
  have hpart : ∀ a rest last, text a ++ rest ≠ close :: last := by
    intro a rest last heq
    obtain ⟨c, tail, htext, hc⟩ := hstart a
    rw [htext] at heq
    exact hc (List.cons.inj heq).1
  obtain ⟨hshapes, hrest⟩ := separated_agree (fun rest => ends_cons rfl rest) (ends_cons hclose r)
    (ends_cons hclose r') (fun rest => ⟨hne rest r, hne rest r'⟩) (fun a rest => ⟨hpart a rest r, hpart a rest r'⟩)
    (fun a ha a' _ => hagree a ha a') h
  exact ⟨hshapes, (List.cons.inj hrest).2⟩

/-! ### Trees -/

mutual

/-- The tree without its truth values and numbers. -/
def shape : Json → Json
  | .null => .null
  | .bool _ => .null
  | .number _ => .null
  | .string s => .string s
  | .array items => .array (shapeItems items)
  | .object members => .object (shapeMembers members)

/-- Each item without its truth values and numbers. -/
def shapeItems : List Json → List Json
  | [] => []
  | j :: rest => shape j :: shapeItems rest

/-- Each member without its truth values and numbers. -/
def shapeMembers : List (String × Json) → List (String × Json)
  | [] => []
  | (name, j) :: rest => (name, shape j) :: shapeMembers rest

end

theorem shapeItems_eq_map (items : List Json) : shapeItems items = items.map shape := by
  induction items with
  | nil => rfl
  | cons item rest ih => rw [shapeItems, ih, List.map_cons]

theorem shapeMembers_eq_map (members : List (String × Json)) :
    shapeMembers members = members.map fun member => (member.1, member.2.shape) := by
  induction members with
  | nil => rfl
  | cons member rest ih =>
      obtain ⟨name, j⟩ := member
      rw [shapeMembers, ih, List.map_cons]

theorem compactItems_eq_map (items : List Json) : compactItems items = items.map compactChars := by
  induction items with
  | nil => rfl
  | cons item rest ih => rw [compactItems, ih, List.map_cons]

/-- A member as text. -/
def memberChars (member : String × Json) : List Char :=
  quote member.1 ++ ':' :: compactChars member.2

theorem compactMembers_eq_map (members : List (String × Json)) : compactMembers members = members.map memberChars := by
  induction members with
  | nil => rfl
  | cons member rest ih =>
      obtain ⟨name, j⟩ := member
      rw [compactMembers, ih, List.map_cons, memberChars]

/-- The character that a tree other than a scalar starts with. -/
def opening? : Json → Option Char
  | .string _ => some '"'
  | .array _ => some '['
  | .object _ => some '\x7b'
  | _ => none

theorem unmarked_of_opening? {j : Json} (h : opening? j = none) : j.shape = .null ∧ Unmarked (compactChars j) := by
  cases j with
  | null => exact ⟨by rw [shape], unmarked_of_all (by decide)⟩
  | bool b => exact ⟨by rw [shape], unmarked_of_all (by cases b <;> decide)⟩
  | number n => exact ⟨by rw [shape], unmarked_numberChars n⟩
  | _ => cases h

/-- A tree starts with its opening character or, a scalar, with none that structures a text. -/
theorem exists_cons_compactChars (j : Json) :
    ∃ c tail, compactChars j = c :: tail ∧ (if isMark c then some c else none) = opening? j := by
  cases hopening : opening? j with
  | none =>
      obtain ⟨-, hne, hunmarked⟩ := unmarked_of_opening? hopening
      obtain ⟨c, tail, hchars⟩ := List.exists_cons_of_ne_nil hne
      exact ⟨c, tail, hchars, by simp [hunmarked c (hchars ▸ List.mem_cons_self)]⟩
  | some mark =>
      cases j with
      | string s => exact ⟨_, _, rfl, hopening ▸ rfl⟩
      | array items => exact ⟨_, _, rfl, hopening ▸ rfl⟩
      | object members => exact ⟨_, _, rfl, hopening ▸ rfl⟩
      | _ => cases hopening

/-- Trees with texts that start alike are of one kind. -/
theorem opening?_eq {j j' : Json} {r r' : List Char} (h : compactChars j ++ r = compactChars j' ++ r') :
    opening? j = opening? j' := by
  obtain ⟨c, tail, hchars, hopening⟩ := exists_cons_compactChars j
  obtain ⟨c', tail', hchars', hopening'⟩ := exists_cons_compactChars j'
  rw [hchars, hchars'] at h
  rw [← hopening, ← hopening', (List.cons.inj h).1]

/-- Induction over a tree: an array has the property if its items have it, an object if the values of its members. -/
theorem inductOn {motive : Json → Prop} (null : motive .null) (bool : ∀ b, motive (.bool b))
    (number : ∀ n, motive (.number n)) (string : ∀ s, motive (.string s))
    (array : ∀ items, (∀ item ∈ items, motive item) → motive (.array items))
    (object : ∀ members, (∀ member ∈ members, motive member.2) → motive (.object members)) : ∀ j, motive j
  | .null => null
  | .bool b => bool b
  | .number n => number n
  | .string s => string s
  | .array items => array items fun item _ => inductOn null bool number string array object item
  | .object members => object members fun member _ => inductOn null bool number string array object member.2
termination_by j => sizeOf j
decreasing_by
  · exact Nat.lt_of_lt_of_le (List.sizeOf_lt_of_mem ‹item ∈ items›) (by simp)
  · exact Nat.lt_of_lt_of_le (sizeOf_lt_of_mem_members ‹member ∈ members›) (by simp)

theorem scalar_agree {j j' : Json} (hopening : opening? j = none) {r r' : List Char} (hr : Ends r) (hr' : Ends r')
    (h : compactChars j ++ r = compactChars j' ++ r') : j.shape = j'.shape ∧ r = r' := by
  obtain ⟨hshape, hunmarked⟩ := unmarked_of_opening? hopening
  obtain ⟨hshape', hunmarked'⟩ := unmarked_of_opening? ((opening?_eq h).symm.trans hopening)
  exact ⟨hshape.trans hshape'.symm, hunmarked.append_inj hunmarked' hr hr' h⟩

/-- No tree starts like the end of an array. -/
theorem start_compactChars (j : Json) : ∃ c tail, compactChars j = c :: tail ∧ c ≠ ']' := by
  obtain ⟨c, tail, hchars, hopening⟩ := exists_cons_compactChars j
  refine ⟨c, tail, hchars, ?_⟩
  rintro rfl
  cases j <;> cases hopening

/-- No member starts like the end of an object. -/
theorem start_memberChars (member : String × Json) : ∃ c tail, memberChars member = c :: tail ∧ c ≠ '\x7d' :=
  ⟨_, _, rfl, by decide⟩

/-- A text determines the shape of the tree that it starts with, and where that tree ends. -/
theorem compactChars_agree {j j' : Json} {r r' : List Char} (hr : Ends r) (hr' : Ends r')
    (h : compactChars j ++ r = compactChars j' ++ r') : j.shape = j'.shape ∧ r = r' := by
  have hopening := opening?_eq h
  induction j using inductOn generalizing j' r r' with
  | string s =>
      cases j' with
      | string s' =>
          obtain ⟨rfl, hrest⟩ := quote_inj h
          exact ⟨rfl, hrest⟩
      | _ => simp [opening?] at hopening
  | array items ih =>
      cases j' with
      | array items' =>
          simp only [compactChars, compactItems_eq_map, List.cons_append, List.append_assoc, List.nil_append,
            List.cons.injEq, true_and] at h
          obtain ⟨hshapes, hrest⟩ := commas_agree rfl (by decide) start_compactChars
            (fun item hitem item' s s' hs hs' heq => ih item hitem hs hs' heq (opening?_eq heq)) h
          exact ⟨by rw [shape, shape, shapeItems_eq_map, shapeItems_eq_map, hshapes], hrest⟩
      | _ => simp [opening?] at hopening
  | object members ih =>
      cases j' with
      | object members' =>
          simp only [compactChars, compactMembers_eq_map, List.cons_append, List.append_assoc, List.nil_append,
            List.cons.injEq, true_and] at h
          have hmembers : ∀ member ∈ members, ∀ member' s s', Ends s → Ends s' →
              memberChars member ++ s = memberChars member' ++ s' →
                (member.1, member.2.shape) = (member'.1, member'.2.shape) ∧ s = s' := by
            intro member hmember member' s s' hs hs' heq
            rw [memberChars, memberChars, List.append_assoc, List.append_assoc] at heq
            obtain ⟨hname, hvalue⟩ := quote_inj heq
            have hchars := (List.cons.inj hvalue).2
            obtain ⟨hshape, hrest⟩ := ih member hmember hs hs' hchars (opening?_eq hchars)
            exact ⟨by rw [hname, hshape], hrest⟩
          obtain ⟨hshapes, hrest⟩ := commas_agree rfl (by decide) start_memberChars hmembers h
          exact ⟨by rw [shape, shape, shapeMembers_eq_map, shapeMembers_eq_map, hshapes], hrest⟩
      | _ => simp [opening?] at hopening
  | _ => exact scalar_agree rfl hr hr' h

/-- Trees with one text have one shape. -/
theorem shape_eq_of_compact {j j' : Json} (h : j.compact = j'.compact) : j.shape = j'.shape := by
  have hchars : compactChars j ++ [] = compactChars j' ++ [] := congrArg (· ++ []) (String.ofList_injective h)
  exact (compactChars_agree ends_nil ends_nil hchars).1

/-- The shape of a tree has the names of the tree. -/
theorem noRepeats_shape (j : Json) : j.shape.NoRepeats ↔ j.NoRepeats := by
  induction j using inductOn with
  | array items ih =>
      rw [shape, NoRepeats, NoRepeats, shapeItems_eq_map, List.forall_mem_map]
      exact forall₂_congr ih
  | object members ih =>
      rw [shape, NoRepeats, NoRepeats, shapeMembers_eq_map, List.forall_mem_map, List.map_map]
      exact and_congr Iff.rfl (forall₂_congr ih)
  | _ => simp [shape, NoRepeats]

/-- Whether a tree repeats a name is a matter of its text. -/
theorem noRepeats_iff_of_compact {j j' : Json} (h : j.compact = j'.compact) : j.NoRepeats ↔ j'.NoRepeats := by
  rw [← noRepeats_shape, shape_eq_of_compact h, noRepeats_shape]

end Json

end Rulebook
