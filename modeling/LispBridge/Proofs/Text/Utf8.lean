import Mathlib.Data.List.Forall2
import LispBridge.Text.Utf8

/-!
Decoding undoes encoding: `Utf8.decode` reads the bytes of a text back as the characters of the
text. Nor can the bytes of a text be taken for those of another (`prefix_of_flatMap_prefix`,
`exists_split_of_first`).

A character is read by its first byte, which says in which ranges the others must be
(`lead_two`, `lead_three`, `lead_four`), and by those others one at a time
(`State.run_continueWith`).
-/

namespace LispBridge.Utf8

/-! ### The bytes of a text -/

/-- The loop that lists the bytes of an array lists those from its index on. -/
private theorem toList_loop_eq (bs : ByteArray) (i : Nat) (r : List UInt8) :
    ByteArray.toList.loop bs i r = r.reverse ++ bs.data.toList.drop i := by
  fun_induction ByteArray.toList.loop bs i r with
  | case1 i r inside ih =>
    have bound : i < bs.data.toList.length := inside
    have here : bs.get! i = bs.data.toList[i] := getElem!_pos bs.data i inside
    rw [ih, List.drop_eq_getElem_cons bound, here]
    simp
  | case2 i r outside =>
    have past : bs.data.toList.length ≤ i := Nat.le_of_not_lt outside
    rw [List.drop_eq_nil_of_le past, List.append_nil]

private theorem byteArray_toList_eq (bs : ByteArray) : bs.toList = bs.data.toList := by
  rw [ByteArray.toList, toList_loop_eq]
  rfl

/-- A text is spelled character by character. -/
theorem encode_eq (s : String) : encode s = s.toList.flatMap String.utf8EncodeChar := by
  rw [encode, byteArray_toList_eq, String.toUTF8_eq_toByteArray, ← String.utf8Encode_toList,
    List.utf8Encode, List.toList_data_toByteArray]

theorem encode_append (s t : String) : encode (s ++ t) = encode s ++ encode t := by
  simp only [encode_eq, String.toList_append, List.flatMap_append]

theorem length_encode (s : String) : (encode s).length = s.utf8ByteSize := by
  rw [encode, byteArray_toList_eq, String.toUTF8_eq_toByteArray, ← String.size_toByteArray]
  rfl

/-! ### How many bytes characters take -/

@[simp] theorem byteLength_nil : byteLength [] = 0 :=
  rfl

theorem foldl_charLength (n : Nat) (cs : List Char) :
    cs.foldl (fun n c => n + charLength c) n = n + byteLength cs := by
  rw [byteLength]
  induction cs generalizing n with
  | nil => rfl
  | cons c cs ih => rw [List.foldl_cons, List.foldl_cons, ih, ih (0 + charLength c)]; omega

@[simp] theorem byteLength_cons (c : Char) (cs : List Char) :
    byteLength (c :: cs) = charLength c + byteLength cs := by
  rw [byteLength, List.foldl_cons, foldl_charLength, Nat.zero_add]

@[simp] theorem byteLength_append (cs ds : List Char) :
    byteLength (cs ++ ds) = byteLength cs + byteLength ds := by
  rw [byteLength, List.foldl_append, foldl_charLength]
  rfl

@[simp] theorem byteLength_reverse (cs : List Char) : byteLength cs.reverse = byteLength cs := by
  induction cs with
  | nil => rfl
  | cons c cs ih => simp [ih, Nat.add_comm]

theorem byteLength_toList (s : String) : byteLength s.toList = s.utf8ByteSize := by
  conv_rhs => rw [← String.ofList_toList (s := s)]
  induction s.toList with
  | nil => rfl
  | cons c cs ih =>
    rw [byteLength_cons, ih, String.ofList_cons, String.utf8ByteSize_append,
      String.utf8ByteSize_singleton]
    rfl

theorem charLength_le_byteLength {cs : List Char} {c : Char} (mem : c ∈ cs) :
    charLength c ≤ byteLength cs := by
  obtain ⟨front, back, rfl⟩ := List.append_of_mem mem
  rw [byteLength_append, byteLength_cons]
  omega

/-! ### Cutting at a byte -/

theorem charLength_pos (c : Char) : 0 < charLength c :=
  c.utf8Size_pos

theorem exists_byteLength_cons (c : Char) (cs : List Char) :
    ∃ n, charLength c + byteLength cs = n + 1 := by
  have positive := charLength_pos c
  exact ⟨charLength c + byteLength cs - 1, by omega⟩

theorem dropBytes?_append (cs ds : List Char) :
    dropBytes? (byteLength cs) (cs ++ ds) = some ds := by
  induction cs with
  | nil => cases ds <;> rfl
  | cons c cs ih =>
    obtain ⟨n, length⟩ := exists_byteLength_cons c cs
    rw [byteLength_cons, length, List.cons_append, dropBytes?, if_pos (by omega), ← length,
      Nat.add_sub_cancel_left, ih]

theorem takeBytes?_append (cs ds : List Char) :
    takeBytes? (byteLength cs) (cs ++ ds) = some cs := by
  induction cs with
  | nil => cases ds <;> rfl
  | cons c cs ih =>
    obtain ⟨n, length⟩ := exists_byteLength_cons c cs
    rw [byteLength_cons, length, List.cons_append, takeBytes?, if_pos (by omega), ← length,
      Nat.add_sub_cancel_left, ih, Option.map_some]

theorem exists_of_dropBytes? {n : Nat} {cs ds : List Char} (cut : dropBytes? n cs = some ds) :
    ∃ front, cs = front ++ ds ∧ byteLength front = n := by
  induction cs generalizing n with
  | nil =>
    cases n with
    | zero => exact ⟨[], Option.some.inj cut, rfl⟩
    | succ n => cases cut
  | cons c cs ih =>
    cases n with
    | zero => exact ⟨[], Option.some.inj cut, rfl⟩
    | succ n =>
      rw [dropBytes?] at cut
      split at cut
      · next fits =>
        obtain ⟨front, rfl, length⟩ := ih cut
        exact ⟨c :: front, rfl, by rw [byteLength_cons, length]; omega⟩
      · cases cut

/-- No cut is inside a character. -/
theorem dropBytes?_inside {front back : List Char} {c : Char} {k : Nat}
    (above : byteLength front < k) (below : k < byteLength front + charLength c) :
    dropBytes? k (front ++ c :: back) = none := by
  cases cut : dropBytes? k (front ++ c :: back) with
  | none => rfl
  | some rest =>
    obtain ⟨front', split, rfl⟩ := exists_of_dropBytes? cut
    rcases List.append_eq_append_iff.mp split with ⟨more, rfl, begins⟩ | ⟨more, rfl, -⟩
    · cases more with
      | nil => simp at above
      | cons d more =>
        obtain ⟨rfl, -⟩ := List.cons.inj begins
        rw [byteLength_append, byteLength_cons] at below
        omega
    · rw [byteLength_append] at above
      omega

/-- A text can be cut at a byte if the byte is a position in the text, or its end. -/
theorem isSome_dropBytes?_iff {s : String} {n : Nat} :
    (dropBytes? n s.toList).isSome = true ↔ String.Pos.Raw.IsValid s ⟨n⟩ := by
  rw [String.Pos.Raw.isValid_iff_exists_append]
  constructor
  · intro cut
    obtain ⟨ds, cut⟩ := Option.isSome_iff_exists.mp cut
    obtain ⟨front, text, length⟩ := exists_of_dropBytes? cut
    refine ⟨String.ofList front, String.ofList ds, ?_, ?_⟩
    · rw [← String.ofList_append, ← text, String.ofList_toList]
    · rw [String.Pos.Raw.ext_iff, String.byteIdx_rawEndPos, ← byteLength_toList,
        String.toList_ofList, length]
  · rintro ⟨s₁, s₂, rfl, position⟩
    have length : n = byteLength s₁.toList := by
      rw [byteLength_toList]
      exact congrArg String.Pos.Raw.byteIdx position
    rw [length, String.toList_append, dropBytes?_append]
    rfl

/-! ### First bytes -/

theorem lead_one {b : Nat} (most : b ≤ 0x7f) : lead b = some ⟨b, []⟩ :=
  if_pos (by omega)

theorem lead_two {b : Nat} (least : 0xc2 ≤ b) (most : b ≤ 0xdf) :
    lead b = some ⟨b - 0xc0, [continuation]⟩ := by
  rw [lead, if_neg (by omega), if_neg (by omega), if_pos (by omega)]

theorem lead_three {b : Nat} (least : 0xe0 ≤ b) (most : b ≤ 0xef) :
    lead b = some ⟨b - 0xe0,
      [(if b = 0xe0 then 0xa0 else 0x80, if b = 0xed then 0x9f else 0xbf), continuation]⟩ := by
  rw [lead, if_neg (by omega), if_neg (by omega), if_neg (by omega)]
  by_cases low : b = 0xe0
  · simp [low]
  · by_cases surrogate : b = 0xed
    · simp [surrogate]
    · simp [low, surrogate, continuation]
      omega

theorem lead_four {b : Nat} (least : 0xf0 ≤ b) (most : b ≤ 0xf4) :
    lead b = some ⟨b - 0xf0,
      [(if b = 0xf0 then 0x90 else 0x80, if b = 0xf4 then 0x8f else 0xbf),
        continuation, continuation]⟩ := by
  rw [lead, if_neg (by omega), if_neg (by omega), if_neg (by omega), if_neg (by omega),
    if_neg (by omega), if_neg (by omega)]
  by_cases low : b = 0xf0
  · simp [low]
  · by_cases high : b = 0xf4
    · simp [high]
    · rw [if_neg low, if_pos (by omega)]
      simp [low, high, continuation]

/-! ### Reading one character -/

/-- A byte in the range it may come from. -/
def IsWithin (b : UInt8) (range : Nat × Nat) : Prop :=
  range.1 ≤ b.toNat ∧ b.toNat ≤ range.2

/-- The bits of a character once more of its bytes are read. -/
def joinBits (bits : Nat) (bs : List UInt8) : Nat :=
  bs.foldl (fun bits b => bits * 64 + (b.toNat - 0x80)) bits

/-- The byte that six bits are written in. -/
def tailOf (n : Nat) : UInt8 :=
  UInt8.ofNat (n % 0x40 + 0x80)

theorem toNat_tailOf (n : Nat) : (tailOf n).toNat = n % 0x40 + 0x80 :=
  UInt8.toNat_ofNat_of_lt' (show _ < 0x100 by omega)

theorem isWithin_tailOf {n lo hi : Nat} (least : lo ≤ n % 0x40 + 0x80)
    (most : n % 0x40 + 0x80 ≤ hi) : IsWithin (tailOf n) (lo, hi) := by
  rw [IsWithin, toNat_tailOf]
  exact ⟨least, most⟩

theorem isWithin_continuation (n : Nat) : IsWithin (tailOf n) continuation :=
  isWithin_tailOf (by omega) (by omega)

@[simp] theorem joinBits_nil (bits : Nat) : joinBits bits [] = bits :=
  rfl

@[simp] theorem joinBits_tailOf (bits n : Nat) (bs : List UInt8) :
    joinBits bits (tailOf n :: bs) = joinBits (bits * 64 + n % 0x40) bs := by
  rw [joinBits, List.foldl_cons, toNat_tailOf, Nat.add_sub_cancel, joinBits]

namespace State

/-- Missing bytes that come from their ranges complete the character. -/
theorem run_continueWith (s : State) (bits read : Nat) {bs : List UInt8}
    {missing : List (Nat × Nat)} (within : List.Forall₂ IsWithin bs missing) :
    (s.continueWith ⟨bits, missing⟩ read).run bs =
      .ok { chars := Char.ofNat (joinBits bits bs) :: s.chars
            index := s.index + read + bs.length } := by
  induction within generalizing s bits read with
  | nil => rfl
  | @cons b range bs missing here _ ih =>
    have pushed : (s.continueWith ⟨bits, range :: missing⟩ read).push b.toNat =
        .ok ((s.continueWith ⟨bits, range :: missing⟩ read).continueWith
          ⟨bits * 64 + (b.toNat - 0x80), missing⟩ (read + 1)) :=
      if_pos here
    rw [run, pushed]
    refine (ih _ _ _).trans ?_
    simp only [continueWith, joinBits, List.foldl_cons, List.length_cons, Nat.add_assoc,
      Nat.add_comm 1]

/-- Between two characters, a first byte and the bytes it announces are the character that their
bits spell. -/
theorem run_lead {s : State} (between : s.begun = none) {c : Char} {b : UInt8} {bs : List UInt8}
    {bits : Nat} {missing : List (Nat × Nat)} (first : lead b.toNat = some ⟨bits, missing⟩)
    (within : List.Forall₂ IsWithin bs missing) (spells : joinBits bits bs = c.toNat) :
    s.run (b :: bs) = .ok { chars := c :: s.chars, index := s.index + (b :: bs).length } := by
  have pushed : s.push b.toNat =
      .ok (({ s with begun := none }).continueWith ⟨bits, missing⟩ 1) := by
    simp only [push, between, start, first]
  rw [run, pushed]
  refine (run_continueWith _ _ _ within).trans ?_
  rw [spells, Char.ofNat_toNat, List.length_cons, Nat.add_assoc, Nat.add_comm 1]

/-- The bytes of a character are read as that character. The cases are those of the encoding, by
the number of bytes. -/
theorem run_utf8EncodeChar {s : State} (between : s.begun = none) (c : Char) :
    s.run (String.utf8EncodeChar c) =
      .ok { chars := c :: s.chars, index := s.index + (String.utf8EncodeChar c).length } := by
  have valid : c.val.toNat < 0xd800 ∨ 0xdfff < c.val.toNat ∧ c.val.toNat < 0x110000 := c.valid
  have spelled : c.toNat = c.val.toNat := rfl
  fun_cases String.utf8EncodeChar c with
  | case1 v one =>
    have first : (UInt8.ofNat v).toNat = v :=
      UInt8.toNat_ofNat_of_lt' (show _ < 0x100 by omega)
    refine run_lead between ((congrArg lead first).trans (lead_one one)) .nil ?_
    rfl
  | case2 v more two =>
    have first : (UInt8.ofNat (v / 64 % 0x20 + 0xc0)).toNat = v / 64 % 0x20 + 0xc0 :=
      UInt8.toNat_ofNat_of_lt' (show _ < 0x100 by omega)
    have within : List.Forall₂ IsWithin [tailOf v] [continuation] :=
      .cons (isWithin_continuation v) .nil
    have spells : joinBits (v / 64 % 0x20 + 0xc0 - 0xc0) [tailOf v] = c.toNat := by
      simp only [joinBits_tailOf, joinBits_nil]
      omega
    have announces := (congrArg lead first).trans (lead_two (by omega) (by omega))
    exact run_lead between announces within spells
  | case3 v more more' three =>
    have first : (UInt8.ofNat (v / 4096 % 0x10 + 0xe0)).toNat = v / 4096 % 0x10 + 0xe0 :=
      UInt8.toNat_ofNat_of_lt' (show _ < 0x100 by omega)
    -- A smaller second byte would spell a character of two bytes, a larger one a surrogate.
    have second : IsWithin (tailOf (v / 64))
        (if v / 4096 % 0x10 + 0xe0 = 0xe0 then 0xa0 else 0x80,
          if v / 4096 % 0x10 + 0xe0 = 0xed then 0x9f else 0xbf) := by
      apply isWithin_tailOf
      · split <;> omega
      · split <;> omega
    have within := List.Forall₂.cons second (.cons (isWithin_continuation v) .nil)
    have spells : joinBits (v / 4096 % 0x10 + 0xe0 - 0xe0)
        [tailOf (v / 64), tailOf v] = c.toNat := by
      simp only [joinBits_tailOf, joinBits_nil]
      omega
    have announces := (congrArg lead first).trans (lead_three (by omega) (by omega))
    exact run_lead between announces within spells
  | case4 v more more' more'' =>
    have first : (UInt8.ofNat (v / 262144 % 0x08 + 0xf0)).toNat = v / 262144 % 0x08 + 0xf0 :=
      UInt8.toNat_ofNat_of_lt' (show _ < 0x100 by omega)
    -- A smaller second byte would spell a character of three bytes, a larger one a number that
    -- is not a character.
    have second : IsWithin (tailOf (v / 4096))
        (if v / 262144 % 0x08 + 0xf0 = 0xf0 then 0x90 else 0x80,
          if v / 262144 % 0x08 + 0xf0 = 0xf4 then 0x8f else 0xbf) := by
      apply isWithin_tailOf
      · split <;> omega
      · split <;> omega
    have within := List.Forall₂.cons second
      (.cons (isWithin_continuation (v / 64)) (.cons (isWithin_continuation v) .nil))
    have spells : joinBits (v / 262144 % 0x08 + 0xf0 - 0xf0)
        [tailOf (v / 4096), tailOf (v / 64), tailOf v] = c.toNat := by
      simp only [joinBits_tailOf, joinBits_nil]
      omega
    have announces := (congrArg lead first).trans (lead_four (by omega) (by omega))
    exact run_lead between announces within spells

/-! ### Reading a text -/

/-- Bytes read without a fault can be followed by others. -/
theorem run_append {s s' : State} {as : List UInt8} (ran : s.run as = .ok s') (bs : List UInt8) :
    s.run (as ++ bs) = s'.run bs := by
  induction as generalizing s with
  | nil =>
    cases ran
    rfl
  | cons a as ih =>
    rw [run] at ran
    rw [List.cons_append, run]
    split at ran
    · exact ih ran
    · cases ran

/-- Between two characters, the bytes of a text are read as its characters. -/
theorem run_flatMap {s : State} (between : s.begun = none) (cs : List Char) :
    s.run (cs.flatMap String.utf8EncodeChar) =
      .ok { chars := cs.reverse ++ s.chars
            index := s.index + (cs.flatMap String.utf8EncodeChar).length } := by
  induction cs generalizing s with
  | nil =>
    cases s
    cases between
    rfl
  | cons c cs ih =>
    rw [List.flatMap_cons, run_append (run_utf8EncodeChar between c), ih rfl]
    simp [Nat.add_assoc]

end State

/-- The bytes of a text decode to its characters. -/
theorem decode_encode (s : String) : decode (encode s) = .ok s.toList := by
  rw [decode, encode_eq, State.run_flatMap rfl]
  simp

/-! ### Bytes of other characters -/

/-- The character that bytes begin with. -/
theorem eq_of_utf8EncodeChar_append {c d : Char} {xs ys : List UInt8}
    (same : String.utf8EncodeChar c ++ xs = String.utf8EncodeChar d ++ ys) : c = d := by
  have decoded (c : Char) (xs : List UInt8) :
      (String.utf8EncodeChar c ++ xs).toByteArray.utf8DecodeChar? 0 = some c := by
    rw [List.toByteArray_append, ByteArray.utf8DecodeChar?_utf8EncodeChar_append]
  have read := decoded c xs
  rw [same, decoded d ys] at read
  exact (Option.some.inj read).symm

theorem length_flatMap_utf8EncodeChar (cs : List Char) :
    (cs.flatMap String.utf8EncodeChar).length = byteLength cs := by
  rw [← String.toList_ofList (l := cs), ← encode_eq, length_encode, byteLength_toList]

/-- The bytes of characters begin with those of others only if the characters do. -/
theorem prefix_of_flatMap_prefix {cs ds : List Char}
    (bytes : cs.flatMap String.utf8EncodeChar <+: ds.flatMap String.utf8EncodeChar) :
    cs <+: ds := by
  induction cs generalizing ds with
  | nil => exact List.nil_prefix
  | cons c cs ih =>
    obtain ⟨more, same⟩ := bytes
    rw [List.flatMap_cons, List.append_assoc] at same
    cases ds with
    | nil =>
      have none := congrArg List.length (List.append_eq_nil_iff.mp same).1
      rw [String.length_utf8EncodeChar] at none
      exact absurd none (Nat.ne_of_gt c.utf8Size_pos)
    | cons d ds =>
      rw [List.flatMap_cons] at same
      obtain rfl := eq_of_utf8EncodeChar_append same
      exact List.cons_prefix_cons.mpr ⟨rfl, ih ⟨more, List.append_cancel_left same⟩⟩

/-- A byte that can begin a character is not inside one. -/
theorem exists_split_of_first {cs : List Char} {n : Nat} {b : UInt8}
    (here : (cs.flatMap String.utf8EncodeChar)[n]? = some b) (first : b.IsUTF8FirstByte) :
    ∃ front back, cs = front ++ back ∧ byteLength front = n := by
  induction cs generalizing n with
  | nil => cases here
  | cons c cs ih =>
    rw [List.flatMap_cons, List.getElem?_append, String.length_utf8EncodeChar] at here
    split at here
    · obtain ⟨within, rfl⟩ := List.getElem?_eq_some_iff.mp here
      have start := UInt8.isUTF8FirstByte_getElem_utf8EncodeChar.mp first
      exact ⟨[], c :: cs, rfl, start.symm⟩
    · obtain ⟨front, back, rfl, length⟩ := ih here
      refine ⟨c :: front, back, rfl, ?_⟩
      rw [byteLength_cons, charLength, length]
      omega

end LispBridge.Utf8
