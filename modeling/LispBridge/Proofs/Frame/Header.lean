import LispBridge.Frame.Basic
import LispBridge.Proofs.Text.Utf8

/-!
The header of a frame announces the length it was made from: six hexadecimal digits are read back
as the number they were printed from, as long as six digits are enough for it.
-/

namespace LispBridge.Frame

/-! ### Digits -/

/-- The byte of a hexadecimal digit. -/
def hexByte (d : Nat) : UInt8 :=
  UInt8.ofNat (Nat.digitChar d).toNat

theorem utf8EncodeChar_digitChar : ∀ d < 16, String.utf8EncodeChar d.digitChar = [hexByte d] := by
  decide

theorem hexValue?_hexByte : ∀ d < 16, hexValue? (hexByte d) = some d := by
  decide

/-- Digits that spell a number in base sixteen, the most significant first. -/
structure Spells (digits : List Nat) (n : Nat) : Prop where
  small : ∀ d ∈ digits, d < 16
  value : digits.foldl (fun n d => n * 16 + d) 0 = n

namespace Spells

variable {digits : List Nat} {n d : Nat}

theorem push (spells : Spells digits n) (small : d < 16) : Spells (digits ++ [d]) (n * 16 + d) where
  small := by
    intro e mem
    rcases List.mem_append.mp mem with old | new
    · exact spells.small e old
    · rw [List.mem_singleton.mp new]
      exact small
  value := by rw [List.foldl_append, spells.value, List.foldl_cons, List.foldl_nil]

/-- Zeros in front of the digits change nothing. -/
theorem pad (spells : Spells digits n) (k : Nat) : Spells (List.replicate k 0 ++ digits) n := by
  induction k with
  | zero => exact spells
  | succ k ih =>
    refine ⟨?_, ?_⟩
    · intro e mem
      rw [List.replicate_succ, List.cons_append] at mem
      rcases List.mem_cons.mp mem with rfl | mem
      · omega
      · exact ih.small e mem
    · rw [List.replicate_succ, List.cons_append, List.foldl_cons]
      exact ih.value

/-- The digits that a number is printed with spell it. -/
theorem exists_toDigits (n : Nat) :
    ∃ digits, Spells digits n ∧ Nat.toDigits 16 n = digits.map Nat.digitChar := by
  induction n using Nat.strongRecOn with
  | ind n ih =>
    by_cases small : n < 16
    · refine ⟨[n], ⟨?_, ?_⟩, ?_⟩
      · intro d mem
        rw [List.mem_singleton.mp mem]
        exact small
      · simp
      · exact Nat.toDigits_of_lt_base small
    · obtain ⟨digits, spells, printed⟩ := ih (n / 16) (by omega)
      refine ⟨digits ++ [n % 16], ?_, ?_⟩
      · have pushed := spells.push (Nat.mod_lt n (by omega : 0 < 16))
        rwa [Nat.div_add_mod'] at pushed
      · rw [Nat.toDigits_of_base_le (by omega) (by omega), printed, List.map_append]
        rfl

end Spells

/-! ### Headers -/

/-- Digits are read back one at a time, from whatever the digits in front of them announced. -/
theorem announced?_map_hexByte {digits : List Nat} {n : Nat} (spells : Spells digits n) :
    announced? (digits.map hexByte) = some n := by
  have read (digits : List Nat) (small : ∀ d ∈ digits, d < 16) (m : Nat) :
      (digits.map hexByte).foldl
          (fun n b => n.bind fun n => (hexValue? b).map (n * 16 + ·)) (some m) =
        some (digits.foldl (fun n d => n * 16 + d) m) := by
    induction digits generalizing m with
    | nil => rfl
    | cons d digits ih =>
      have here := hexValue?_hexByte d (small d List.mem_cons_self)
      have others := ih (fun e mem => small e (List.mem_cons_of_mem d mem)) (m * 16 + d)
      simpa only [List.map_cons, List.foldl_cons, Option.bind_some, here, Option.map_some] using others
  rw [announced?, read digits spells.small 0, spells.value]

/-- The bytes of a header are six digits that spell the length. -/
theorem encode_headerOf {n : Nat} (fits : n ≤ maxPayload) :
    ∃ digits, Spells digits n ∧ digits.length = headerLength ∧
      Utf8.encode (headerOf n) = digits.map hexByte := by
  obtain ⟨digits, spells, printed⟩ := Spells.exists_toDigits n
  have few : digits.length ≤ headerLength := by
    have few := (Nat.length_toDigits_le_iff (b := 16) (n := n) (k := headerLength)
      (by decide) (by decide)).mpr (Nat.lt_succ_of_le fits)
    rwa [printed, List.length_map] at few
  let padded := List.replicate (headerLength - digits.length) 0 ++ digits
  have spelled : Spells padded n := spells.pad _
  refine ⟨padded, spelled, ?_, ?_⟩
  · simp only [padded, List.length_append, List.length_replicate]
    omega
  · have header : headerOf n = String.ofList (padded.map Nat.digitChar) := by
      simp only [headerOf, printed, padded, List.length_map, List.map_append, List.map_replicate]
      rfl
    rw [Utf8.encode_eq, header, String.toList_ofList, List.flatMap_map, List.map_eq_flatMap]
    refine List.flatMap_congr fun d mem => ?_
    exact utf8EncodeChar_digitChar d (spelled.small d mem)

@[simp] theorem length_encode_headerOf {n : Nat} (fits : n ≤ maxPayload) :
    (Utf8.encode (headerOf n)).length = headerLength := by
  obtain ⟨digits, _, six, bytes⟩ := encode_headerOf fits
  rw [bytes, List.length_map, six]

/-- A header announces the length it was made from. -/
theorem announced?_encode_headerOf {n : Nat} (fits : n ≤ maxPayload) :
    announced? (Utf8.encode (headerOf n)) = some n := by
  obtain ⟨digits, spells, _, bytes⟩ := encode_headerOf fits
  rw [bytes, announced?_map_hexByte spells]

end LispBridge.Frame
