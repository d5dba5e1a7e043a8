import Rulebook.Glob

/-!
# Paths that begin as a glob does

A match only moves forward through a path, and literal text moves it by just its own bytes. So of a glob that begins
with literal text all matches begin with that text. This module provides:

* `Glob.bytes_eq` and `Glob.prefix_of_bytes` — the bytes of a path are those of its characters, and a path begins
  with characters if it begins with their bytes;
* `Marks.Follows` — every marked place comes after one that was marked before, which holds of any tokens
  (`Glob.matchTokens_follows`);
* `Marks.Spelled` — only the place after given bytes can be marked, which literal tokens keep; and
* `Glob.eq_of_accepts_literals` and `Glob.begins_of_accepts` — what a path that is accepted looks like if the glob is
  literal text, and if it begins with literal text and a slash.
-/

namespace Rulebook

/-! ### Bytes of text -/

namespace Glob

theorem toListLoop_eq (bytes : ByteArray) (i : Nat) (reversed : List UInt8) :
    ByteArray.toList.loop bytes i reversed = reversed.reverse ++ bytes.data.toList.drop i := by
  fun_induction ByteArray.toList.loop bytes i reversed with
  | case1 i reversed hlt ih =>
      have hi : i < bytes.data.toList.length := by simpa using hlt
      have hget : bytes.get! i = bytes.data.toList[i] := by simp [ByteArray.get!, hlt]
      rw [ih, List.drop_eq_getElem_cons hi, hget, List.reverse_cons, List.append_assoc, List.singleton_append]
  | case2 i reversed hge =>
      have hnil : bytes.data.toList.drop i = [] := List.drop_eq_nil_of_le (by simpa using Nat.le_of_not_lt hge)
      rw [hnil, List.append_nil]

theorem toList_toByteArray (bytes : List UInt8) : bytes.toByteArray.toList = bytes := by
  rw [ByteArray.toList, toListLoop_eq, List.toList_data_toByteArray]
  rfl

/-- The bytes of a text are those of its characters. -/
theorem bytes_eq (text : String) : text.toUTF8.toList = text.toList.flatMap String.utf8EncodeChar := by
  rw [String.toUTF8_eq_toByteArray, ← String.utf8Encode_toList]
  exact toList_toByteArray _

theorem charBytes_eq (c : Char) : charBytes c = String.utf8EncodeChar c := by
  rw [charBytes, bytes_eq]
  simp

theorem charBytes_slash : charBytes '/' = [0x2f] := by
  decide +kernel

/-- A text begins with characters if its bytes begin with theirs. -/
theorem prefix_of_bytes {chars others : List Char}
    (h : chars.flatMap charBytes <+: others.flatMap String.utf8EncodeChar) : chars <+: others := by
  obtain ⟨rest, hrest⟩ := h
  refine List.isPrefix_of_utf8Encode_append_eq_utf8Encode rest.toByteArray ?_
  have hbytes : charBytes = String.utf8EncodeChar := funext charBytes_eq
  rw [List.utf8Encode, List.utf8Encode, ← List.toByteArray_append, ← hrest, hbytes]

end Glob

/-! ### Places -/

namespace Marks

/-- Every place that is marked comes after one that was marked before, or is that one. -/
def Follows (before after : Marks) : Prop :=
  ∀ place : Nat, after[place]? = some true → ∃ earlier ≤ place, before[earlier]? = some true

theorem Follows.refl (marks : Marks) : Follows marks marks :=
  fun place hplace => ⟨place, Nat.le_refl place, hplace⟩

theorem Follows.trans {first second third : Marks} (h₁ : Follows first second) (h₂ : Follows second third) :
    Follows first third := by
  intro place hplace
  obtain ⟨middle, hmiddle, hmarked⟩ := h₂ place hplace
  obtain ⟨earlier, hearlier, hfirst⟩ := h₁ middle hmarked
  exact ⟨earlier, Nat.le_trans hearlier hmiddle, hfirst⟩

section

variable {α : Type} {before marks other : Marks} {input : List α} {place : Nat}

theorem getElem?_or (h : (marks.or other)[place]? = some true) :
    marks[place]? = some true ∨ other[place]? = some true := by
  obtain ⟨a, b, ha, hb, hor⟩ := List.getElem?_zipWith_eq_some.1 h
  rcases Bool.or_eq_true_iff.1 hor with rfl | rfl
  · exact .inl ha
  · exact .inr hb

theorem Follows.or (h₁ : Follows before marks) (h₂ : Follows before other) : Follows before (marks.or other) := by
  intro place hplace
  rcases getElem?_or hplace with hmarked | hmarked
  · exact h₁ place hmarked
  · exact h₂ place hmarked

/-- A place after one element is the next after a marked one, and the element between the two is of the kind. -/
theorem getElem?_one {isIn : α → Bool} (h : (marks.one isIn input)[place]? = some true) :
    ∃ earlier element, place = earlier + 1 ∧ marks[earlier]? = some true ∧ input[earlier]? = some element ∧
      isIn element = true := by
  cases place with
  | zero => simp [one] at h
  | succ earlier =>
      rw [one, List.getElem?_cons_succ] at h
      obtain ⟨element, marked, helement, hmarked, hboth⟩ := List.getElem?_zipWith_eq_some.1 h
      obtain ⟨rfl, hkind⟩ := Bool.and_eq_true_iff.1 hboth
      exact ⟨earlier, element, rfl, hmarked, helement, hkind⟩

theorem follows_one (isIn : α → Bool) (input : List α) (marks : Marks) : Follows marks (marks.one isIn input) := by
  intro place hplace
  obtain ⟨earlier, element, rfl, hmarked, -⟩ := getElem?_one hplace
  exact ⟨earlier, Nat.le_succ earlier, hmarked⟩

theorem getElem?_manyFrom {isIn : α → Bool} {reached : Bool}
    (h : (manyFrom isIn reached input marks)[place]? = some true) :
    reached = true ∨ ∃ earlier ≤ place, marks[earlier]? = some true := by
  fun_induction manyFrom isIn reached input marks generalizing place with
  | case1 reached element input marked marks ih =>
      have hhead : (reached || marked) = true →
          reached = true ∨ ∃ earlier ≤ place, (marked :: marks)[earlier]? = some true := by
        intro hor
        rcases Bool.or_eq_true_iff.1 hor with hreached | rfl
        · exact .inl hreached
        · exact .inr ⟨0, Nat.zero_le place, rfl⟩
      cases place with
      | zero => exact hhead (by simpa using h)
      | succ later =>
          rcases ih (by simpa using h) with hboth | ⟨earlier, hearlier, hmarked⟩
          · exact hhead (Bool.and_eq_true_iff.1 hboth).1
          · exact .inr ⟨earlier + 1, Nat.succ_le_succ hearlier, hmarked⟩
  | case2 reached marked =>
      cases place with
      | zero =>
          rcases Bool.or_eq_true_iff.1 (by simpa using h) with hreached | rfl
          · exact .inl hreached
          · exact .inr ⟨0, Nat.zero_le 0, rfl⟩
      | succ later => simp at h
  | case3 => simp at h

theorem follows_any (input : List α) (marks : Marks) : Follows marks (marks.any input) := by
  intro place hplace
  exact (getElem?_manyFrom hplace).resolve_left Bool.false_ne_true

theorem not_marked (input : List α) (place : Nat) : (input.map fun _ => false)[place]? ≠ some true := by
  intro h
  obtain ⟨_, _, hfalse⟩ := List.mem_map.1 (List.mem_of_getElem? h)
  cases hfalse

theorem follows_none (input : List α) (marks : Marks) : Follows marks (none input) := by
  intro place hplace
  cases place with
  | zero => cases hplace
  | succ earlier => exact absurd hplace (not_marked input earlier)

/-- The last place of the input is marked. -/
theorem exists_of_atEnd (h : marks.atEnd = true) :
    ∃ place, marks[place]? = some true ∧ place + 1 = marks.length := by
  rw [atEnd, List.getLastD_eq_getLast?, List.getLast?_eq_getElem?] at h
  cases marks with
  | nil => simp at h
  | cons marked rest =>
      refine ⟨rest.length, ?_, rfl⟩
      simpa using h

end

/-! ### Text that has been spelled -/

/-- There is a mark or none for each place, and a marked place is the one after the bytes that `spelled` holds. -/
structure Spelled (spelled input : List UInt8) (marks : Marks) : Prop where
  size : marks.length = input.length + 1
  taken : ∀ place : Nat, marks[place]? = some true → input.take place = spelled

variable {spelled input : List UInt8} {marks : Marks}

theorem spelled_start (input : List UInt8) : Spelled [] input (start input) where
  size := by simp [start]
  taken := by
    intro place hplace
    cases place with
    | zero => rfl
    | succ earlier => exact absurd hplace (not_marked input earlier)

theorem Spelled.one (h : Spelled spelled input marks) (byte : UInt8) :
    Spelled (spelled ++ [byte]) input (marks.one (· == byte) input) where
  size := by simp [Marks.one, h.size]
  taken := by
    intro place hplace
    obtain ⟨earlier, element, rfl, hmarked, helement, hbyte⟩ := getElem?_one hplace
    rw [List.take_add_one, h.taken earlier hmarked, helement, beq_iff_eq.1 hbyte]
    rfl

/-- After marks that follow, all that lies before is still there. -/
theorem Spelled.prefix_of_follows {after : Marks} (h : Spelled spelled input marks) (hfollows : Follows marks after)
    (hend : after.atEnd = true) : spelled <+: input := by
  obtain ⟨place, hplace, -⟩ := exists_of_atEnd hend
  obtain ⟨earlier, -, hmarked⟩ := hfollows place hplace
  rw [← h.taken earlier hmarked]
  exact List.take_prefix earlier input

theorem Spelled.eq_of_atEnd (h : Spelled spelled input marks) (hend : marks.atEnd = true) : input = spelled := by
  obtain ⟨place, hplace, hsize⟩ := exists_of_atEnd hend
  obtain rfl : place = input.length := Nat.succ.inj (hsize.trans h.size)
  rw [← h.taken _ hplace, List.take_length]

end Marks

/-! ### Tokens -/

namespace Glob

open Marks (Follows Spelled)

variable {spelled input : List UInt8} {marks : Marks}

theorem follows_afterBytes (wanted input : List UInt8) (marks : Marks) :
    Follows marks (afterBytes wanted input marks) := by
  induction wanted generalizing marks with
  | nil => exact .refl marks
  | cons byte wanted ih => exact (Marks.follows_one (· == byte) input marks).trans (ih _)

theorem follows_afterSlash (input : List UInt8) (marks : Marks) : Follows marks (afterSlash input marks) :=
  Marks.follows_one _ input marks

mutual

theorem matchToken_follows (input : List UInt8) :
    ∀ (token : Token) (marks : Marks), Follows marks (matchToken input token marks)
  | .literal c, marks => follows_afterBytes (charBytes c) input marks
  | .any, marks => Marks.follows_one _ input marks
  | .star, marks => Marks.follows_any input marks
  | .anyPartsFirst, marks =>
      have hany := (Marks.follows_any input marks).trans (follows_afterSlash input _)
      ((Follows.refl marks).or (follows_afterSlash input marks)).or hany
  | .anyPartsLast, marks => (follows_afterSlash input marks).trans (Marks.follows_any input _)
  | .anyPartsBetween, marks =>
      have hafter := follows_afterSlash input marks
      hafter.or (hafter.trans ((Marks.follows_any input _).trans (follows_afterSlash input _)))
  | .oneOf negated ranges, marks => Marks.follows_one _ input marks
  | .group branches, marks => by
      rw [matchToken]
      split
      · exact .refl marks
      · exact matchBranches_follows input branches marks

theorem matchTokens_follows (input : List UInt8) :
    ∀ (tokens : List Token) (marks : Marks), Follows marks (matchTokens input tokens marks)
  | [], marks => .refl marks
  | token :: more, marks => (matchToken_follows input token marks).trans (matchTokens_follows input more _)

theorem matchBranches_follows (input : List UInt8) :
    ∀ (branches : List (List Token)) (marks : Marks), Follows marks (matchBranches input branches marks)
  | [], marks => Marks.follows_none input marks
  | branch :: more, marks => by
      rw [matchBranches]
      split
      · exact matchBranches_follows input more marks
      · exact (matchTokens_follows input branch marks).or (matchBranches_follows input more marks)

end

theorem matchTokens_append (input : List UInt8) (first second : List Token) (marks : Marks) :
    matchTokens input (first ++ second) marks = matchTokens input second (matchTokens input first marks) := by
  induction first generalizing marks with
  | nil => rfl
  | cons token first ih => exact ih _

theorem spelled_afterBytes (wanted : List UInt8) {spelled : List UInt8} {marks : Marks}
    (h : Spelled spelled input marks) : Spelled (spelled ++ wanted) input (afterBytes wanted input marks) := by
  induction wanted generalizing spelled marks with
  | nil => simpa [afterBytes] using h
  | cons byte wanted ih => simpa [afterBytes] using ih (h.one byte)

theorem spelled_literals (chars : List Char) {spelled : List UInt8} {marks : Marks}
    (h : Spelled spelled input marks) :
    Spelled (spelled ++ chars.flatMap charBytes) input (matchTokens input (chars.map .literal) marks) := by
  induction chars generalizing spelled marks with
  | nil => simpa [matchTokens] using h
  | cons c chars ih => simpa [matchTokens, matchToken] using ih (spelled_afterBytes (charBytes c) h)

/-- A token that stands for a slash, and for anything that may follow the slash. -/
inductive Token.IsSlash : Token → Prop where
  | literal : IsSlash (.literal '/')
  | anyPartsLast : IsSlash .anyPartsLast
  | anyPartsBetween : IsSlash .anyPartsBetween

/-- Whatever such a token stands for, it first takes the slash. -/
theorem Token.IsSlash.follows {token : Token} (h : token.IsSlash) (input : List UInt8) (marks : Marks) :
    Follows (afterSlash input marks) (matchToken input token marks) := by
  cases h with
  | literal =>
      rw [matchToken, charBytes_slash]
      exact .refl _
  | anyPartsLast => exact Marks.follows_any input _
  | anyPartsBetween =>
      have hafter := Follows.refl (afterSlash input marks)
      exact hafter.or ((Marks.follows_any input _).trans (follows_afterSlash input _))

/-- What a glob accepts is matched by its tokens, unless these are parts that stand alone. -/
theorem atEnd_of_accepts {tokens : List Token} {path : String} (hparts : tokens ≠ [.anyPartsFirst])
    (h : accepts ⟨tokens⟩ path = true) :
    (matchTokens path.toUTF8.toList tokens (Marks.start path.toUTF8.toList)).atEnd = true := by
  rw [accepts] at h
  split at h
  · next heq => exact absurd heq hparts
  · exact h

/-- A glob of literal text accepts that text only. -/
theorem eq_of_accepts_literals {chars : List Char} {path : String}
    (h : accepts ⟨chars.map .literal⟩ path = true) : path.toList = chars := by
  have hend := atEnd_of_accepts (by cases chars <;> simp) h
  have hspelled := (spelled_literals chars (Marks.spelled_start path.toUTF8.toList)).eq_of_atEnd hend
  rw [List.nil_append, bytes_eq] at hspelled
  -- The bytes of the one are those of the other, so each begins with the other.
  have hbytes : charBytes = String.utf8EncodeChar := funext charBytes_eq
  have hbegin : path.toList <+: chars := prefix_of_bytes ⟨[], by rw [List.append_nil, hbytes, hspelled, hbytes]⟩
  have hwhole : chars <+: path.toList := prefix_of_bytes ⟨[], by rw [List.append_nil, hspelled]⟩
  exact hbegin.eq_of_length (Nat.le_antisymm hbegin.length_le hwhole.length_le)

/-- A glob that begins with literal text and a slash accepts only what begins with that text and a slash. -/
theorem begins_of_accepts {chars : List Char} {token : Token} {more : List Token} {path : String}
    (hslash : token.IsSlash) (h : accepts ⟨chars.map .literal ++ token :: more⟩ path = true) :
    chars ++ ['/'] <+: path.toList := by
  have hparts : chars.map Token.literal ++ token :: more ≠ [.anyPartsFirst] := by
    cases chars with
    | nil =>
        intro heq
        obtain ⟨rfl, -⟩ := List.cons.inj heq
        cases hslash
    | cons c chars => simp
  have hend := atEnd_of_accepts hparts h
  have hspelled := (spelled_literals chars (Marks.spelled_start path.toUTF8.toList)).one 0x2f
  rw [matchTokens_append, matchTokens] at hend
  -- Once the slash is taken, what follows only moves on.
  have hslashed := hslash.follows path.toUTF8.toList
    (matchTokens path.toUTF8.toList (chars.map .literal) (Marks.start path.toUTF8.toList))
  have hbegin := hspelled.prefix_of_follows (hslashed.trans (matchTokens_follows path.toUTF8.toList more _)) hend
  rw [List.nil_append, bytes_eq] at hbegin
  refine prefix_of_bytes ?_
  simpa [charBytes_slash] using hbegin

end Glob

end Rulebook
