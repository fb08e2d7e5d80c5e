import LispBridge.Proofs.Text.Search
import LispBridge.Proofs.Text.Utf8

/-!
Where a text occurs in another one.

A search goes from character to character. By its bytes, a text might occur at any byte of another
one; but what begins with a character never occurs inside a character (`occursAt_iff`). So a search
finds the occurrences that the bytes have.

* `OccursAt`: a text occurs at a byte.
* `IsBeforeFirst`, `IsBeforeLast`: what is in front of the first occurrence, or of the last one.
* `IsBeforeFirst.unique`, `IsBeforeLast.unique`: there is one such part.
* `isBeforeFirst_beforeFirst`, `isBeforeLast_beforeLast`: searches find it.
-/

namespace LispBridge.Text

/-! ### Occurrences -/

/-- From a byte on, a text has the bytes of another text. -/
def OccursAt (part text : String) (n : Nat) : Prop :=
  Utf8.encode part <+: (Utf8.encode text).drop n

instance {part text : String} {n : Nat} : Decidable (OccursAt part text n) :=
  inferInstanceAs (Decidable (_ <+: _))

theorem occursAt_append (front part back : String) :
    OccursAt part (front ++ part ++ back) front.utf8ByteSize := by
  refine ⟨Utf8.encode back, ?_⟩
  rw [Utf8.encode_append, Utf8.encode_append, List.append_assoc, ← Utf8.length_encode,
    List.drop_left]

/-- Bytes that are those of a text are its characters. -/
theorem occursAt_iff {part text : String} {n : Nat} (nonempty : part ≠ "") :
    OccursAt part text n ↔
      ∃ front back, text = front ++ part ++ back ∧ front.utf8ByteSize = n := by
  constructor
  · intro occurs
    rw [OccursAt, Utf8.encode_eq, Utf8.encode_eq] at occurs
    have some_first : part.toList ≠ [] := mt String.toList_eq_nil_iff.mp nonempty
    obtain ⟨c, r, begins⟩ := List.exists_cons_of_ne_nil some_first
    have positive : 0 < (String.utf8EncodeChar c).length := by
      rw [String.length_utf8EncodeChar]
      exact c.utf8Size_pos
    have here : (text.toList.flatMap String.utf8EncodeChar)[n]? =
        some (String.utf8EncodeChar c)[0] := by
      obtain ⟨more, bytes⟩ := occurs
      rw [begins, List.flatMap_cons, List.append_assoc] at bytes
      rw [← List.head?_drop, ← bytes, List.head?_append, List.head?_eq_getElem?,
        List.getElem?_eq_getElem positive, Option.some_or]
    obtain ⟨front, back, split, length⟩ :=
      Utf8.exists_split_of_first here UInt8.isUTF8FirstByte_getElem_zero_utf8EncodeChar
    rw [split, List.flatMap_append, ← length, ← Utf8.length_flatMap_utf8EncodeChar,
      List.drop_left] at occurs
    obtain ⟨rest, rfl⟩ := Utf8.prefix_of_flatMap_prefix occurs
    refine ⟨String.ofList front, String.ofList rest, ?_, ?_⟩
    · rw [← String.toList_inj, split]
      simp
    · rw [← Utf8.byteLength_toList, String.toList_ofList, length]
  · rintro ⟨front, back, rfl, rfl⟩
    exact occursAt_append front part back

/-- Two occurrences share a space, behind a character of two bytes. -/
example : OccursAt " in " "é in in y" 2 ∧ OccursAt " in " "é in in y" 5 := by decide +kernel

/-- What occurs in the front of a text occurs there in the whole text, and ends with the front. -/
theorem OccursAt.of_front {part front : String} {n : Nat} (nonempty : part ≠ "")
    (occurs : OccursAt part front n) (back : String) :
    OccursAt part (front ++ back) n ∧ n + part.utf8ByteSize ≤ front.utf8ByteSize := by
  obtain ⟨before, behind, rfl, rfl⟩ := (occursAt_iff nonempty).mp occurs
  constructor
  · have whole := occursAt_append before part (behind ++ back)
    rwa [← String.append_assoc] at whole
  · rw [String.utf8ByteSize_append, String.utf8ByteSize_append]
    exact Nat.le_add_right _ _

/-! ### In front of an occurrence -/

/-- What is in front of the first occurrence of a separator; the whole text if there is none, or if
the separator is empty. -/
inductive IsBeforeFirst (sep text : String) : String → Prop
  | whole (never : sep = "" ∨ ∀ n, ¬ OccursAt sep text n) : IsBeforeFirst sep text text
  | cut {front back : String} (nonempty : sep ≠ "") (split : text = front ++ sep ++ back)
      (first : ∀ n, OccursAt sep text n → front.utf8ByteSize ≤ n) : IsBeforeFirst sep text front

/-- What is in front of the last occurrence of a separator; the whole text if there is none. -/
inductive IsBeforeLast (sep text : String) : String → Prop
  | whole (never : ∀ n, ¬ OccursAt sep text n) : IsBeforeLast sep text text
  | cut {front back : String} (split : text = front ++ sep ++ back)
      (last : ∀ n, OccursAt sep text n → n ≤ front.utf8ByteSize) : IsBeforeLast sep text front

section Fronts

variable {sep text front front' back back' : String}

theorem occursAt_of_split (split : text = front ++ sep ++ back) :
    OccursAt sep text front.utf8ByteSize :=
  split ▸ occursAt_append front sep back

/-- Of two parts at the front of one text, the one with more characters takes more bytes. -/
theorem size_le_of_length_le (split : text = front ++ sep ++ back)
    (split' : text = front' ++ sep ++ back')
    (length : front.toList.length ≤ front'.toList.length) :
    front.utf8ByteSize ≤ front'.utf8ByteSize := by
  have here : front.toList <+: text.toList := ⟨sep.toList ++ back.toList, by simp [split]⟩
  have here' : front'.toList <+: text.toList := ⟨sep.toList ++ back'.toList, by simp [split']⟩
  obtain ⟨more, same⟩ := List.prefix_of_prefix_length_le here here' length
  rw [← Utf8.byteLength_toList, ← Utf8.byteLength_toList, ← same, Utf8.byteLength_append]
  exact Nat.le_add_right _ _

/-- Two parts at the front of one text are the same if they take as many bytes. -/
theorem eq_of_size_eq (split : text = front ++ sep ++ back)
    (split' : text = front' ++ sep ++ back')
    (size : front.utf8ByteSize = front'.utf8ByteSize) : front = front' := by
  have bytes := congrArg Utf8.encode (split.symm.trans split')
  rw [String.append_assoc, String.append_assoc, Utf8.encode_append front,
    Utf8.encode_append front'] at bytes
  rw [← Utf8.length_encode, ← Utf8.length_encode] at size
  have chars := congrArg Utf8.decode (List.append_inj_left bytes size)
  rw [Utf8.decode_encode, Utf8.decode_encode] at chars
  exact String.toList_inj.mp (Except.ok.inj chars)

theorem IsBeforeFirst.unique (one : IsBeforeFirst sep text front)
    (other : IsBeforeFirst sep text front') : front = front' := by
  cases one with
  | whole never =>
    cases other with
    | whole => rfl
    | cut nonempty split =>
      exact absurd (occursAt_of_split split) (never.resolve_left nonempty _)
  | cut nonempty split first =>
    cases other with
    | whole never => exact absurd (occursAt_of_split split) (never.resolve_left nonempty _)
    | cut _ split' first' =>
      have least := first _ (occursAt_of_split split')
      have least' := first' _ (occursAt_of_split split)
      exact eq_of_size_eq split split' (Nat.le_antisymm least least')

theorem IsBeforeLast.unique (one : IsBeforeLast sep text front)
    (other : IsBeforeLast sep text front') : front = front' := by
  cases one with
  | whole never =>
    cases other with
    | whole => rfl
    | cut split => exact absurd (occursAt_of_split split) (never _)
  | cut split last =>
    cases other with
    | whole never => exact absurd (occursAt_of_split split) (never _)
    | cut split' last' =>
      have most := last _ (occursAt_of_split split')
      have most' := last' _ (occursAt_of_split split)
      exact eq_of_size_eq split split' (Nat.le_antisymm most' most)

theorem IsBeforeFirst.exists_append (is : IsBeforeFirst sep text front) :
    ∃ back, text = front ++ back := by
  cases is with
  | whole => exact ⟨"", String.append_empty.symm⟩
  | @cut _ back _ split => exact ⟨sep ++ back, by rw [split, String.append_assoc]⟩

theorem IsBeforeLast.exists_append (is : IsBeforeLast sep text front) :
    ∃ back, text = front ++ back := by
  cases is with
  | whole => exact ⟨"", String.append_empty.symm⟩
  | @cut _ back split => exact ⟨sep ++ back, by rw [split, String.append_assoc]⟩

/-- In front of its first occurrence a separator does not occur. -/
theorem IsBeforeFirst.not_occursAt (is : IsBeforeFirst sep text front) (nonempty : sep ≠ "")
    (n : Nat) : ¬ OccursAt sep front n := by
  intro occurs
  cases is with
  | whole never => exact (never.resolve_left nonempty) n occurs
  | @cut _ back _ split first =>
    obtain ⟨whole, within⟩ := occurs.of_front nonempty (sep ++ back)
    rw [← String.append_assoc, ← split] at whole
    have least := first n whole
    have positive : 0 < sep.utf8ByteSize :=
      Nat.pos_of_ne_zero (mt String.utf8ByteSize_eq_zero_iff.mp nonempty)
    omega

end Fronts

/-! ### What searches find -/

theorem ofList_split {sep : String} {cs front back : List Char}
    (split : cs = front ++ sep.toList ++ back) :
    String.ofList cs = String.ofList front ++ sep ++ String.ofList back := by
  rw [split, String.ofList_append, String.ofList_append, String.ofList_toList]

theorem toList_split {sep front back : String} {cs : List Char}
    (split : String.ofList cs = front ++ sep ++ back) :
    cs = front.toList ++ sep.toList ++ back.toList := by
  rw [← String.toList_ofList (l := cs), split, String.toList_append, String.toList_append]

theorem not_occursAt_of_absent {sep : String} {cs : List Char} (nonempty : sep ≠ "")
    (absent : ¬ sep.toList <:+: cs) (n : Nat) : ¬ OccursAt sep (String.ofList cs) n := by
  intro occurs
  obtain ⟨front, back, split, -⟩ := (occursAt_iff nonempty).mp occurs
  exact absent ⟨front.toList, back.toList, (toList_split split).symm⟩

theorem isBeforeFirst_beforeFirst {sep : String} (nonempty : sep ≠ "") (cs : List Char) :
    IsBeforeFirst sep (String.ofList cs) (String.ofList (beforeFirst sep.toList cs)) := by
  rcases beforeFirst_cases sep.toList cs with ⟨never, all⟩ | ⟨back, split, first⟩
  · rw [all]
    exact .whole (.inr (not_occursAt_of_absent nonempty never))
  · refine .cut nonempty (ofList_split split) fun n occurs => ?_
    obtain ⟨front', back', split', rfl⟩ := (occursAt_iff nonempty).mp occurs
    refine size_le_of_length_le (ofList_split split) split' ?_
    rw [String.toList_ofList]
    exact first front'.toList back'.toList (toList_split split')

theorem isBeforeLast_beforeLast {sep : String} (nonempty : sep ≠ "") (cs : List Char) :
    IsBeforeLast sep (String.ofList cs) (String.ofList (beforeLast sep.toList cs)) := by
  rcases beforeLast_cases sep.toList cs with ⟨never, all⟩ | ⟨back, split, last⟩
  · rw [all]
    exact .whole (not_occursAt_of_absent nonempty never)
  · refine .cut (ofList_split split) fun n occurs => ?_
    obtain ⟨front', back', split', rfl⟩ := (occursAt_iff nonempty).mp occurs
    refine size_le_of_length_le split' (ofList_split split) ?_
    rw [String.toList_ofList]
    exact last front'.toList back'.toList (toList_split split')

end LispBridge.Text
