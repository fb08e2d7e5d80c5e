import LispBridge.Datum.Printer

/-!
The characters that a value is printed with.

* `chars`: those characters, with an equation for each form of value.
* `toList_escape`: the characters of a string literal.
-/

namespace LispBridge.Datum

/-! ### String literals -/

/-- What stands for a character in a string literal. -/
def escapeChar (c : Char) : List Char :=
  if c = '"' ∨ c = '\\' then ['\\', c] else [c]

theorem toList_pushEscaped (acc : String) (c : Char) :
    (pushEscaped acc c).toList = acc.toList ++ escapeChar c := by
  rw [pushEscaped, escapeChar]
  split
  · simp
  · simp

theorem toList_foldl_pushEscaped (s acc : String) :
    (s.foldl pushEscaped acc).toList = acc.toList ++ s.toList.flatMap escapeChar := by
  rw [String.foldl_eq_foldl_toList]
  induction s.toList generalizing acc with
  | nil => simp
  | cons c cs ih =>
    rw [List.foldl_cons, ih, toList_pushEscaped, List.flatMap_cons, List.append_assoc]

theorem toList_escape (s : String) : (escape s).toList = s.toList.flatMap escapeChar := by
  rw [escape, toList_foldl_pushEscaped]
  rfl

/-! ### Values -/

/-- The characters that a value is printed with. -/
def chars (style : Style) (d : Datum) : List Char :=
  (d.print style).toList

/-- The characters of values, a space in front of each. -/
def itemChars (style : Style) (ds : List Datum) : List Char :=
  ds.flatMap fun d => ' ' :: d.chars style

section Printing

variable (style : Style)

mutual

/-- A value is printed behind a text as it is printed alone. -/
theorem toList_printOnto (acc : String) (d : Datum) :
    (printOnto style acc d).toList = acc.toList ++ d.chars style := by
  match d with
  | .nil => simp [chars, print, printOnto]
  | .t => simp [chars, print, printOnto]
  | .int n => simp [chars, print, printOnto]
  | .float x => simp [chars, print, printOnto]
  | .str s =>
    rw [chars, print, printOnto, printOnto, String.toList_push, String.toList_push,
      toList_foldl_pushEscaped, toList_foldl_pushEscaped, String.toList_push, String.toList_push]
    simp
  | .symbol name => simp [chars, print, printOnto]
  | .list [] => simp [chars, print, printOnto]
  | .list (d :: ds) =>
    rw [chars, print, printOnto, printOnto, String.toList_push, String.toList_push,
      toList_printItemsOnto, toList_printItemsOnto, toList_printOnto, toList_printOnto,
      String.toList_push, String.toList_push]
    simp

theorem toList_printItemsOnto (acc : String) (ds : List Datum) :
    (printItemsOnto style acc ds).toList = acc.toList ++ itemChars style ds := by
  match ds with
  | [] => simp [printItemsOnto, itemChars]
  | d :: ds =>
    rw [printItemsOnto, toList_printItemsOnto, toList_printOnto, itemChars, itemChars,
      List.flatMap_cons]
    simp

end

@[simp] theorem chars_nil : chars style .nil = style.falsehood.toList := by
  simp [chars, print, printOnto]

@[simp] theorem chars_t : chars style .t = style.truth.toList := by
  simp [chars, print, printOnto]

@[simp] theorem chars_int (n : Int64) : chars style (.int n) = renderInt n.toInt := by
  simp [chars, print, printOnto]

@[simp] theorem chars_float (x : Binary64) : chars style (.float x) = x.render := by
  simp [chars, print, printOnto]

@[simp] theorem chars_symbol (name : String) : chars style (.symbol name) = name.toList := by
  simp [chars, print, printOnto]

theorem chars_str (s : String) :
    chars style (.str s) = '"' :: (s.toList.flatMap escapeChar ++ ['"']) := by
  rw [chars, print, printOnto, String.toList_push, toList_foldl_pushEscaped, String.toList_push]
  simp

@[simp] theorem itemChars_nil : itemChars style [] = [] :=
  rfl

theorem itemChars_cons (d : Datum) (ds : List Datum) :
    itemChars style (d :: ds) = ' ' :: (d.chars style ++ itemChars style ds) :=
  rfl

theorem chars_list_cons (d : Datum) (ds : List Datum) :
    chars style (.list (d :: ds)) = '(' :: (d.chars style ++ itemChars style ds ++ [')']) := by
  rw [chars, print, printOnto, String.toList_push, toList_printItemsOnto, toList_printOnto,
    String.toList_push]
  simp

end Printing

end LispBridge.Datum
