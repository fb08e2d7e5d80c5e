import LispBridge.Proofs.Descent.Forms

/-!
Reading by recursive descent makes progress from every place in a text.

* `Onward`: a cursor that has not moved backwards, nor out of the text, nor into a character.
* `Progresses`: that each loop over the text ends, and where. What ends cuts no character in two.
* `progresses_from_every_place`: this holds of every text, every place in it and every depth, and
  reading from the start comes to what the reader comes to.
-/

namespace LispBridge.Descent

/-- A cursor in a text, between two characters or at either end. -/
def Cursor.IsPlace (text : String) (c : Cursor) : Prop :=
  String.Pos.Raw.IsValid text ⟨c.offset⟩

/-- Every place is behind a part of the text. -/
theorem Cursor.IsPlace.exists_behind {text : String} {c : Cursor} (place : c.IsPlace text) :
    ∃ front back, text.toList = front ++ back ∧ c = behind front c.depth := by
  obtain ⟨back, cut⟩ := Option.isSome_iff_exists.mp (Utf8.isSome_dropBytes?_iff.mpr place)
  obtain ⟨front, split, length⟩ := Utf8.exists_of_dropBytes? cut
  refine ⟨front, back, split, ?_⟩
  rw [behind, length]

theorem isPlace_behind {text : String} {front back : List Char}
    (split : text.toList = front ++ back) (k : Nat) : (behind front k).IsPlace text := by
  refine Utf8.isSome_dropBytes?_iff.mp ?_
  rw [split]
  exact Option.isSome_iff_exists.mpr ⟨back, Utf8.dropBytes?_append front back⟩

/-- A cursor comes to a place in the text that is not before the place where it was, and inside as
many constructs. -/
structure Onward (text : String) (c c' : Cursor) : Prop where
  place : c'.IsPlace text
  within : c'.offset ≤ text.utf8ByteSize
  forward : c.offset ≤ c'.offset
  depth : c'.depth = c.depth

section Behind

variable {text : String} {front used rest : List Char} {k : Nat}

theorem onward_behind (split : text.toList = front ++ used ++ rest) :
    Onward text (behind front k) (behind (front ++ used) k) where
  place := isPlace_behind split k
  within := by
    rw [← Utf8.byteLength_toList, split, Utf8.byteLength_append]
    exact Nat.le_add_right _ _
  forward := by
    simp only [behind, Utf8.byteLength_append]
    exact Nat.le_add_right _ _
  depth := rfl

theorem offset_lt_behind (nonempty : used ≠ []) :
    (behind front k).offset < (behind (front ++ used) k).offset := by
  obtain ⟨c, r, rfl⟩ := List.exists_cons_of_ne_nil nonempty
  have positive := Utf8.charLength_pos c
  simp only [behind, Utf8.byteLength_append, Utf8.byteLength_cons]
  omega

end Behind

/-- What each loop over a text comes to from a cursor. A parser that `Parses` comes to an end, no
matter how many more calls may be inside each other, and cuts no character in two. -/
structure Progresses (text : String) (c : Cursor) : Prop where
  /-- A value is behind the cursor, and no value is left only at the end. -/
  read : Parses (read text.toList) c
    (fun next c' => Onward text c c' ∧ (next.isSome = true → c.offset < c'.offset) ∧
      (next = none → c'.offset = text.utf8ByteSize)) (fun _ => True)
  skipAtmosphere : ∃ c', Ends (skipAtmosphere text.toList) c (.ok ((), c')) ∧ Onward text c c'
  readToken : ∃ token c', Ends (readToken text.toList) c (.ok (token, c')) ∧ Onward text c c'
  readString (content : List Char) : Parses (readString text.toList content) c
    (fun _ c' => Onward text c c' ∧ c.offset < c'.offset) (fun _ => True)
  readList : Parses (readList text.toList) c
    (fun _ c' => Onward text c c' ∧ c.offset < c'.offset) (fun _ => True)
  readForms (forms : List Datum) : Parses (readForms text.toList forms) c
    (fun _ c' => Onward text c c' ∧ c'.offset = text.utf8ByteSize) (fun _ => True)
  readOnly : Parses (readOnly text.toList) c
    (fun _ c' => Onward text c c' ∧ c'.offset = text.utf8ByteSize) (fun _ => True)

section Behind

variable {text : String} {front back : List Char} {k : Nat}

theorem read_progresses (split : text.toList = front ++ back) :
    Parses (read text.toList) (behind front k)
      (fun next c' => Onward text (behind front k) c' ∧
        (next.isSome = true → (behind front k).offset < c'.offset) ∧
        (next = none → c'.offset = text.utf8ByteSize)) (fun _ => True) := by
  refine (read_parses split).mono ?_ fun _ _ => trivial
  rintro _ _ (@⟨gap, skips⟩ | @⟨gap, used, rest, d, skips, takes⟩)
  · have cut : text.toList = front ++ gap ++ [] := by rw [split, skips.split, List.append_assoc]
    refine ⟨onward_behind cut, nofun, fun _ => ?_⟩
    rw [← Utf8.byteLength_toList, cut, List.append_nil]
    rfl
  · have cut : text.toList = front ++ (gap ++ used) ++ rest := by
      rw [split, skips.split]
      simp
    rw [List.append_assoc]
    exact ⟨onward_behind cut,
      fun _ => offset_lt_behind (List.append_ne_nil_of_right_ne_nil gap takes.nonempty), nofun⟩

theorem readList_progresses (split : text.toList = front ++ back) :
    Parses (readList text.toList) (behind front k)
      (fun _ c' => Onward text (behind front k) c' ∧ (behind front k).offset < c'.offset)
      (fun _ => True) := by
  refine (readList_parses (reads text.toList (back.length + 1)).2 split
    (Nat.lt_succ_self _)).mono ?_ fun _ _ => trivial
  rintro d _ ⟨used, rest, rfl, takes, rfl⟩
  have cut : text.toList = front ++ used ++ rest := by rw [split, List.append_assoc]
  exact ⟨onward_behind cut, offset_lt_behind takes.nonempty⟩

/-- The cursor at the end of the text. -/
theorem onward_end (split : text.toList = front ++ back) :
    Onward text (behind front k) (behind text.toList k) ∧
      (behind text.toList k).offset = text.utf8ByteSize := by
  constructor
  · have cut : text.toList = front ++ back ++ [] := by rw [split, List.append_nil]
    rw [split]
    exact onward_behind cut
  · rw [behind, Utf8.byteLength_toList]

theorem progresses_behind (split : text.toList = front ++ back) :
    Progresses text (behind front k) where
  read := read_progresses split
  skipAtmosphere := by
    obtain ⟨gap, rest, skips, ran⟩ := skipAtmosphere_behind (k := k) split
    exact ⟨_, ran, onward_behind (by rw [split, skips.split, List.append_assoc])⟩
  readToken := by
    obtain ⟨token, rest, cuts, ran⟩ := readToken_behind (k := k) split
    exact ⟨_, _, ran, onward_behind (by rw [split, cuts.split, List.append_assoc])⟩
  readString content := by
    refine (readString_parses content split).mono ?_ fun _ _ => trivial
    rintro value _ ⟨used, rest, closes, rfl⟩
    exact ⟨onward_behind (by rw [split, closes.split, List.append_assoc]),
      offset_lt_behind closes.nonempty⟩
  readList := readList_progresses split
  readForms forms := by
    refine (readForms_parses forms split).mono ?_ fun _ _ => trivial
    rintro _ _ ⟨rfl, -⟩
    exact onward_end split
  readOnly := by
    refine (readOnly_parses split).mono ?_ fun _ _ => trivial
    rintro _ _ ⟨rfl, -⟩
    exact onward_end split

end Behind

/-- **From every place in every text, reading makes progress and ends.** A value is read from it or
the text is at its end, no loop goes backwards, out of the text or into a character, and from the
start the forms are those that the reader finds. -/
theorem progresses_from_every_place {text : String} {c : Cursor} (place : c.IsPlace text) :
    Progresses text c ∧
      Ends (readForms text.toList []) {} (comesTo text (Datum.readAll text)) ∧
      Ends (readOnly text.toList) {} (comesTo text (Datum.read text)) := by
  refine ⟨?_, readForms_ends text, readOnly_ends text⟩
  obtain ⟨front, back, split, behind⟩ := place.exists_behind
  rw [behind]
  exact progresses_behind split

/-- From the character behind the first one, which takes two bytes: a comment that does not end,
since its opening and an end mark would share a bar. -/
theorem progresses_in_open_comment :
    Cursor.IsPlace "λ#|#" { offset := 2 } ∧ Progresses "λ#|#" { offset := 2 } ∧
      Ends (readForms "λ#|#".toList []) {} (comesTo "λ#|#" (Datum.readAll "λ#|#")) ∧
      Ends (readOnly "λ#|#".toList) {} (comesTo "λ#|#" (Datum.read "λ#|#")) := by
  have place : Cursor.IsPlace "λ#|#" { offset := 2 } := Utf8.isSome_dropBytes?_iff.mp (by decide)
  exact ⟨place, progresses_from_every_place place⟩

end LispBridge.Descent
