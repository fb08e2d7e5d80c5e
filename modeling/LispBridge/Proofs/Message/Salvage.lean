import LispBridge.Message.Salvage
import LispBridge.Proofs.Datum.RoundTrip

/-!
Recovering the id of a request.

* `HasBody`, `EndsIn`: the text in which the id is looked for, and its last token.
* `ofText_eq_splitCharacter_iff`: when the search for the last token cuts a character in two.
* `salvage_request`: a printed request gives its id, whether it is read or not.
-/

namespace LispBridge

namespace Text

/-- Text that ends in a character that is no white space has nothing to trim there. -/
theorem trimEndChars_concat {c : Char} (cs : List Char) (solid : isBlank c = false) :
    trimEndChars (cs ++ [c]) = cs ++ [c] := by
  have kept : (c :: cs.reverse).dropWhile isBlank = c :: cs.reverse := by
    simp [solid]
  rw [trimEndChars, List.reverse_append, List.reverse_singleton, List.singleton_append, kept,
    List.reverse_cons, List.reverse_reverse]

end Text

namespace Salvage

open Datum

/-! ### The last token -/

/-- The text in which the id of a payload is looked for. The payload opens and closes like a
request, and the closing parenthesis and the white space around it are left out. -/
structure HasBody (payload : String) (body : List Char) : Prop where
  opens : opensRequest (Text.trimChars payload.toList) = true
  closes : ∃ inner, Text.trimChars payload.toList = inner ++ [')'] ∧ body = Text.trimEndChars inner

/-- A text that ends in a token: what stands in front of the last separator, this separator, and
what stands behind it. -/
structure EndsIn (body front : List Char) (separator : Char) (token : List Char) : Prop where
  split : body = front ++ separator :: token
  separates : isSeparator separator = true
  whole : ∀ c ∈ token, isSeparator c = false

section Body

variable {payload : String} {body front token : List Char} {separator : Char}

theorem ofText_of_hasBody (has : HasBody payload body) : ofText payload = ofBody body := by
  obtain ⟨opens, inner, text, rfl⟩ := has
  have reversed : (Text.trimChars payload.toList).reverse = ')' :: inner.reverse := by
    rw [text, List.reverse_append]
    rfl
  simp only [ofText, opens, if_true, reversed]
  rfl

theorem ofText_of_no_body (none : ∀ body, ¬ HasBody payload body) : ofText payload = .nothing := by
  by_cases opens : opensRequest (Text.trimChars payload.toList) = true
  · simp only [ofText, opens, if_true]
    split
    · next r reversed =>
      have text : Text.trimChars payload.toList = r.reverse ++ [')'] := by
        rw [← List.reverse_reverse (Text.trimChars _), reversed, List.reverse_cons]
      exact absurd ⟨opens, _, text, rfl⟩ (none _)
    · rfl
  · simp [ofText, opens]

/-- The last token is read as an integer, if the separator in front of it is a single byte. -/
theorem ofBody_of_endsIn (ends : EndsIn body front separator token) :
    ofBody body =
      if separator.utf8Size ≠ 1 then .splitCharacter
      else
        match readInt64? token with
        | some id => .found id
        | none => .nothing := by
  obtain ⟨rfl, separates, whole⟩ := ends
  have token_whole : ∀ c ∈ token.reverse, (!isSeparator c) = true := by
    intro c mem
    simp [whole c (List.mem_reverse.mp mem)]
  have reversed : (front ++ separator :: token).reverse =
      token.reverse ++ separator :: front.reverse := by simp
  have kept : (token.reverse ++ separator :: front.reverse).takeWhile (fun c => !isSeparator c) =
      token.reverse := by
    rw [List.takeWhile_append_of_pos token_whole]
    simp [separates]
  have dropped : (token.reverse ++ separator :: front.reverse).dropWhile (fun c => !isSeparator c) =
      separator :: front.reverse := by
    rw [List.dropWhile_append_of_pos token_whole]
    simp [separates]
  rw [ofBody, reversed, kept, dropped, List.reverse_reverse]
  rfl

theorem ofBody_of_no_separator (whole : ∀ c ∈ body, isSeparator c = false) :
    ofBody body = .nothing := by
  have dropped : body.reverse.dropWhile (fun c => !isSeparator c) = [] := by
    rw [List.dropWhile_eq_nil_iff]
    intro c mem
    simp [whole c (List.mem_reverse.mp mem)]
  simp only [ofBody, dropped]

/-- A text ends in a token, or nothing in it separates tokens. -/
theorem exists_endsIn (body : List Char) :
    (∃ front separator token, EndsIn body front separator token) ∨
      ∀ c ∈ body, isSeparator c = false := by
  induction body with
  | nil => exact .inr (by simp)
  | cons c cs ih =>
    rcases ih with ⟨front, separator, token, rfl, separates, whole⟩ | none
    · exact .inl ⟨c :: front, separator, token, rfl, separates, whole⟩
    · cases here : isSeparator c with
      | true => exact .inl ⟨[], c, cs, rfl, here, none⟩
      | false => exact .inr (List.forall_mem_cons.mpr ⟨here, none⟩)

/-- Where the last token begins, counted as one byte behind the first byte of the separator, a
character begins exactly if the separator is a single byte. -/
theorem isValid_behind_iff (front token : List Char) (separator : Char) :
    String.Pos.Raw.IsValid (String.ofList (front ++ separator :: token))
        ⟨(String.ofList front).utf8ByteSize + 1⟩ ↔ separator.utf8Size = 1 := by
  have least := separator.utf8Size_pos
  have text : String.ofList (front ++ separator :: token) =
      String.ofList front ++ (String.singleton separator ++ String.ofList token) := by
    rw [String.ofList_append, String.ofList_cons]
  have past_front : ¬ String.Pos.Raw.IsValid (String.ofList front)
      ⟨(String.ofList front).utf8ByteSize + 1⟩ := by
    intro inside
    have := inside.le_utf8ByteSize
    simp at this
  have step : (⟨(String.ofList front).utf8ByteSize + 1⟩ : String.Pos.Raw) - String.ofList front =
      ⟨1⟩ := by
    simp [String.Pos.Raw.ext_iff]
  have start : String.rawEndPos (String.ofList front) ≤ ⟨(String.ofList front).utf8ByteSize + 1⟩ := by
    rw [String.Pos.Raw.le_iff, String.byteIdx_rawEndPos]
    exact Nat.le_succ _
  rw [text, String.Pos.Raw.isValid_append, or_iff_right past_front, step, and_iff_right start,
    String.Pos.Raw.isValid_append, String.Pos.Raw.isValid_singleton]
  constructor
  · rintro ((zero | one) | ⟨most, -⟩)
    · cases zero
    · exact one.symm
    · simp only [String.Pos.Raw.le_iff, String.byteIdx_rawEndPos,
        String.utf8ByteSize_singleton] at most
      omega
  · intro single
    exact .inl (.inr single.symm)

/-- Only white space can be a separator of more than one byte. -/
theorem EndsIn.not_isValid_iff (ends : EndsIn body front separator token) :
    ¬ String.Pos.Raw.IsValid (String.ofList body) ⟨(String.ofList front).utf8ByteSize + 1⟩ ↔
      Text.isBlank separator = true ∧ 1 < separator.utf8Size := by
  have least := separator.utf8Size_pos
  rw [ends.split, isValid_behind_iff]
  constructor
  · intro several
    refine ⟨?_, by omega⟩
    have separates := ends.separates
    rw [isSeparator, Bool.or_eq_true, decide_eq_true_eq] at separates
    rcases separates with blank | rfl
    · exact blank
    · exact absurd (by decide) several
  · rintro ⟨-, several⟩
    omega

/-- What recovering an id from a text comes to. A character is cut in two exactly if the last
token would begin inside of one. -/
theorem ofText_eq_splitCharacter_iff :
    ofText payload = .splitCharacter ↔
      ∃ body front separator token, HasBody payload body ∧ EndsIn body front separator token ∧
        ¬ String.Pos.Raw.IsValid (String.ofList body)
          ⟨(String.ofList front).utf8ByteSize + 1⟩ := by
  constructor
  · intro split
    by_cases has : ∃ body, HasBody payload body
    · obtain ⟨body, has⟩ := has
      rw [ofText_of_hasBody has] at split
      rcases exists_endsIn body with ⟨front, separator, token, ends⟩ | whole
      · refine ⟨body, front, separator, token, has, ends, ?_⟩
        rw [ofBody_of_endsIn ends] at split
        rw [ends.split, isValid_behind_iff]
        intro single
        rw [if_neg (not_not.mpr single)] at split
        split at split <;> cases split
      · rw [ofBody_of_no_separator whole] at split
        cases split
    · rw [ofText_of_no_body (not_exists.mp has)] at split
      cases split
  · rintro ⟨body, front, separator, token, has, ends, inside⟩
    rw [ends.split, isValid_behind_iff] at inside
    rw [ofText_of_hasBody has, ofBody_of_endsIn ends, if_pos inside]

end Body

/-! ### The opening -/

theorem utf8Size_toLower (c : Char) : c.toLower.utf8Size = c.utf8Size := by
  unfold Char.toLower
  split
  · next upper =>
    have most : c.val.toNat ≤ 90 := UInt32.le_iff_toNat_le.mp upper.2
    have lower : c.val + ('a'.val - 'A'.val) ≤ 127 := by
      rw [UInt32.le_iff_toNat_le, UInt32.toNat_add,
        show ('a'.val - 'A'.val).toNat = 32 from rfl, show (127 : UInt32).toNat = 127 from rfl]
      omega
    have small : c.val ≤ 127 := UInt32.le_trans upper.2 (by decide)
    rw [Char.utf8Size_eq_one_iff.mpr small]
    exact Char.utf8Size_eq_one_iff.mpr lower
  · rfl

theorem utf8ByteSize_map_toLower (cs : List Char) :
    (String.ofList (cs.map Char.toLower)).utf8ByteSize = (String.ofList cs).utf8ByteSize := by
  induction cs with
  | nil => rfl
  | cons c cs ih =>
    rw [List.map_cons, String.ofList_cons, String.ofList_cons, String.utf8ByteSize_append,
      String.utf8ByteSize_append, ih, String.utf8ByteSize_singleton, String.utf8ByteSize_singleton,
      utf8Size_toLower]

/-- A text opens like a request if its first eleven bytes are characters that spell the opening. -/
theorem opensRequest_iff {cs : List Char} :
    opensRequest cs = true ↔ ∃ head rest, cs = head ++ rest ∧
      (String.ofList head).utf8ByteSize = 11 ∧ head.map Char.toLower = opening := by
  rw [opensRequest, decide_eq_true_iff]
  constructor
  · intro spells
    refine ⟨cs.take opening.length, cs.drop opening.length, (List.take_append_drop _ _).symm, ?_,
      spells⟩
    rw [← utf8ByteSize_map_toLower, spells]
    rfl
  · rintro ⟨head, rest, rfl, -, spells⟩
    have length : head.length = opening.length := by rw [← spells, List.length_map]
    rw [List.take_left' length, spells]

/-- The head of a text that opens like a request ends between two characters. -/
theorem HasBody.isValid_head {payload : String} {body : List Char} (has : HasBody payload body) :
    String.Pos.Raw.IsValid (Text.trim payload) ⟨11⟩ := by
  obtain ⟨head, rest, text, size, -⟩ := opensRequest_iff.mp has.opens
  rw [Text.trim, text, String.Pos.Raw.isValid_iff_exists_append]
  refine ⟨String.ofList head, String.ofList rest, String.ofList_append, ?_⟩
  rw [String.Pos.Raw.ext_iff, String.byteIdx_rawEndPos, size]

/-! ### Printed requests -/

theorem isSeparator_of_isNumeralChar {c : Char} (numeral : isNumeralChar c = true) :
    isSeparator c = false := by
  have plain := (plain_of_isNumeralChar numeral).1
  simp only [isDelimiter, Bool.or_eq_false_iff, decide_eq_false_iff_not] at plain
  simp [isSeparator, plain]

/-- The message by which the editor asks for a form. -/
def requestMessage (form package thread : Datum) (id : RequestId) : Datum :=
  .list [.symbol ":emacs-rex", form, package, thread, .int id]

section Request

variable {form package thread : Datum} {id : RequestId}

theorem ofDatum_requestMessage : ofDatum (requestMessage form package thread id) = .found id := by
  have kind : (Datum.symbol ":emacs-rex").isSymbol ":emacs-rex" = true := by decide
  simp [ofDatum, requestMessage, Datum.asList?, kind, Datum.asInt?]

/-- The text of a request: it ends in its id, behind a space. -/
theorem toList_wire_requestMessage :
    (requestMessage form package thread id).wire.toList =
      opening ++ itemChars .wire [form, package, thread] ++ ' ' :: renderInt id.toInt ++ [')'] := by
  have text : (requestMessage form package thread id).wire.toList =
      (requestMessage form package thread id).chars .wire := rfl
  have start : opening = '(' :: ":emacs-rex".toList := rfl
  rw [text, requestMessage, chars_list_cons, start, chars_symbol]
  simp only [itemChars_cons, itemChars_nil, chars_int, List.append_assoc, List.cons_append,
    List.append_nil]

/-- The last token of a text that ends in an id, behind a space, is this id. -/
theorem endsIn_renderInt (front : List Char) (id : RequestId) :
    EndsIn (front ++ ' ' :: renderInt id.toInt) front ' ' (renderInt id.toInt) where
  split := rfl
  separates := by decide
  whole c mem := isSeparator_of_isNumeralChar (isNumeralChar_of_mem_renderInt mem)

theorem ofBody_renderInt (front : List Char) (id : RequestId) :
    ofBody (front ++ ' ' :: renderInt id.toInt) = .found id := by
  have single : ' '.utf8Size = 1 := by decide
  rw [ofBody_of_endsIn (endsIn_renderInt front id), if_neg (not_not.mpr single),
    readInt64?_renderInt]

/-- Nothing is trimmed from a printed request, and nothing from what its last parenthesis
closes. -/
theorem hasBody_requestMessage :
    HasBody (requestMessage form package thread id).wire
      (opening ++ itemChars .wire [form, package, thread] ++ ' ' :: renderInt id.toInt) := by
  generalize front_eq : opening ++ itemChars .wire [form, package, thread] = front
  have text : (requestMessage form package thread id).wire.toList =
      front ++ ' ' :: renderInt id.toInt ++ [')'] := by
    rw [toList_wire_requestMessage, front_eq]
  have trimmed : Text.trimChars (front ++ ' ' :: renderInt id.toInt ++ [')']) =
      front ++ ' ' :: renderInt id.toInt ++ [')'] := by
    have start : Text.trimStartChars (front ++ ' ' :: renderInt id.toInt ++ [')']) =
        front ++ ' ' :: renderInt id.toInt ++ [')'] := by
      rw [← front_eq]
      rfl
    rw [Text.trimChars, start, Text.trimEndChars_concat _ (by decide)]
  have inner : Text.trimEndChars (front ++ ' ' :: renderInt id.toInt) =
      front ++ ' ' :: renderInt id.toInt := by
    obtain ⟨digits, last, split⟩ : ∃ digits last, renderInt id.toInt = digits ++ [last] :=
      ⟨_, _, (List.dropLast_append_getLast (renderInt_ne_nil id.toInt)).symm⟩
    have numeral : isNumeralChar last = true :=
      isNumeralChar_of_mem_renderInt (split ▸ List.mem_concat_self)
    have solid := (Bool.or_eq_false_iff.mp (isSeparator_of_isNumeralChar numeral)).1
    have whole : front ++ ' ' :: renderInt id.toInt = (front ++ ' ' :: digits) ++ [last] := by
      rw [split, List.append_assoc, List.cons_append]
    rw [whole, Text.trimEndChars_concat _ solid]
  constructor
  · rw [text, trimmed, ← front_eq]
    rfl
  · exact ⟨_, by rw [text, trimmed], inner.symm⟩

/-- The last token of a printed request is its id, whatever is printed in front of it. -/
theorem ofText_requestMessage : ofText (requestMessage form package thread id).wire = .found id := by
  rw [ofText_of_hasBody hasBody_requestMessage, ofBody_renderInt]

theorem wellFormed_requestMessage (form_fine : form.WellFormed) (package_fine : package.WellFormed)
    (thread_fine : thread.WellFormed) (id : RequestId) :
    (requestMessage form package thread id).WellFormed := by
  refine .list (List.cons_ne_nil _ _) ?_
  simp only [List.forall_mem_cons]
  exact ⟨.symbol ⟨by decide, by rfl⟩, form_fine, package_fine, thread_fine, .int id, by simp⟩

end Request

end Salvage

open Salvage

/-- **A request gives its id, whether it is read or not.** If the reader accepts its text, the id is
the last element; a text that is nested too deep gives its last token. -/
theorem salvage_request {form package thread : Datum} (form_fine : form.WellFormed)
    (package_fine : package.WellFormed) (thread_fine : thread.WellFormed) (id : RequestId) :
    salvage (requestMessage form package thread id).wire = .found id := by
  have readable := Datum.read_wire
    (wellFormed_requestMessage form_fine package_fine thread_fine id)
  unfold salvage
  by_cases fits : (requestMessage form package thread id).nesting ≤ maxDepth
  · rw [readable.1 fits]
    exact ofDatum_requestMessage
  · obtain ⟨offset, unread, -⟩ := readable.2 (Nat.lt_of_not_le fits)
    rw [unread]
    exact ofText_requestMessage

/-- A request whose form holds a parenthesis and another number in a string gives its id, inside two
lists, where it is read, and inside six hundred, where it is not. -/
theorem salvage_request_of_nested_string :
    let message (n : Nat) :=
      requestMessage ((Datum.list [.str ") 12"]).inLists n) (.str "USER") .t (-7)
    (Datum.read (message 2).wire = .ok (message 2) ∧ salvage (message 2).wire = .found (-7)) ∧
      (∃ offset, Datum.read (message 600).wire = .error (.tooDeep offset)) ∧
        salvage (message 600).wire = .found (-7) := by
  intro message
  have form_fine : (Datum.list [.str ") 12"]).WellFormed :=
    .list (List.cons_ne_nil _ _) (List.forall_mem_singleton.mpr (.str _))
  have fine (n : Nat) : (message n).WellFormed :=
    wellFormed_requestMessage (Datum.wellFormed_inLists form_fine n) (.str _) .t (-7)
  have nesting (n : Nat) : (message n).nesting = n + 2 := by
    simp [message, requestMessage, Datum.nesting, Datum.nestingOf, Datum.nesting_inLists]
    omega
  obtain ⟨offset, unread, -⟩ := (Datum.read_wire (fine 600)).2 (by rw [nesting]; decide)
  refine ⟨⟨(Datum.read_wire (fine 2)).1 (by rw [nesting]; decide), ?_⟩, ⟨offset, unread⟩, ?_⟩
  · exact salvage_request (Datum.wellFormed_inLists form_fine 2) (.str _) .t (-7)
  · exact salvage_request (Datum.wellFormed_inLists form_fine 600) (.str _) .t (-7)

end LispBridge
