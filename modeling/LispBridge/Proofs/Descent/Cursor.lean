import LispBridge.Datum.Descent
import LispBridge.Proofs.Text.Utf8

/-!
Where the cursor is.

* `Ends`: what a parser comes to, as soon as enough calls may be inside each other.
* `Parses`: that it comes to an end, and does not cut a character in two. The rules `Parses.after`,
  `Parses.call` and `Parses.bind` follow the steps of a parser.
* `peek_behind`, `bump_behind`, `textFrom_behind` and the others: what the functions that look at
  the text do between two parts of it.
-/

namespace LispBridge.Descent

open Utf8 (byteLength)

/-! ### Ending -/

/-- That a parser comes to a result, and to the same one however many more calls may be inside each
other. -/
def Ends {α : Type} (p : Nat → Parser α) (c : Cursor) (r : Except Stop (α × Cursor)) : Prop :=
  ∃ n, ∀ m, n ≤ m → p m c = some r

/-- That a parser comes to an end: at a value and a cursor of which `good` holds, or at a fault of
the text of which `bad` holds. -/
inductive Parses {α : Type} (p : Nat → Parser α) (c : Cursor) (good : α → Cursor → Prop)
    (bad : ReadFault → Prop) : Prop
  | ok {a : α} {c' : Cursor} (ran : Ends p c (.ok (a, c'))) (holds : good a c')
  | fault {f : ReadFault} (failed : Ends p c (.error (.fault f))) (holds : bad f)

section Steps

variable {α β : Type} {p : Parser α} {next : α → Parser β} {c c' : Cursor} {a : α}

theorem bind_of_ok (ran : p c = some (.ok (a, c'))) : (p >>= next) c = next a c' := by
  simp only [bind, StateT.bind, ExceptT.bind, ExceptT.mk, ran, Option.bind_some,
    ExceptT.bindCont]

theorem bind_of_error {stop : Stop} (failed : p c = some (.error stop)) :
    (p >>= next) c = some (.error stop) := by
  simp only [bind, StateT.bind, ExceptT.bind, ExceptT.mk, failed, Option.bind_some,
    ExceptT.bindCont]
  rfl

end Steps

section Rules

variable {α β : Type} {p : Nat → Parser α} {next : Nat → α → Parser β} {c c' : Cursor} {a : α}
  {r : Except Stop (β × Cursor)} {good : α → Cursor → Prop} {good' : β → Cursor → Prop}
  {bad bad' : ReadFault → Prop}

theorem Ends.of_eq {p : Parser α} {r : Except Stop (α × Cursor)} (ran : p c = some r) :
    Ends (fun _ => p) c r :=
  ⟨0, fun _ _ => ran⟩

/-- A call inside another. -/
theorem Ends.succ {r : Except Stop (α × Cursor)} (ends : Ends (fun n => p (n + 1)) c r) :
    Ends p c r := by
  obtain ⟨n, ends⟩ := ends
  refine ⟨n + 1, fun m enough => ?_⟩
  obtain ⟨m, rfl⟩ : ∃ l, m = l + 1 := ⟨m - 1, by omega⟩
  exact ends m (Nat.le_of_succ_le_succ enough)

theorem Ends.bind (first : Ends p c (.ok (a, c'))) (rest : Ends (fun n => next n a) c' r) :
    Ends (fun n => p n >>= next n) c r := by
  obtain ⟨n, first⟩ := first
  obtain ⟨m, rest⟩ := rest
  refine ⟨max n m, fun l enough => ?_⟩
  exact (bind_of_ok (first l (by omega))).trans (rest l (by omega))

theorem Ends.bind_error {stop : Stop} (failed : Ends p c (.error stop)) :
    Ends (fun n => p n >>= next n) c (.error stop) := by
  obtain ⟨n, failed⟩ := failed
  exact ⟨n, fun m enough => bind_of_error (failed m enough)⟩

/-- A step that calls nothing. -/
theorem Ends.after {p : Parser α} (ran : p c = some (.ok (a, c')))
    (rest : Ends (fun n => next n a) c' r) : Ends (fun n => p >>= next n) c r :=
  .bind (.of_eq ran) rest

theorem Parses.succ (parses : Parses (fun n => p (n + 1)) c good bad) : Parses p c good bad := by
  cases parses with
  | ok ran holds => exact .ok ran.succ holds
  | fault failed holds => exact .fault failed.succ holds

/-- A call whose result is known. -/
theorem Parses.call (ran : Ends p c (.ok (a, c')))
    (rest : Parses (fun n => next n a) c' good' bad) :
    Parses (fun n => p n >>= next n) c good' bad := by
  cases rest with
  | ok ran' holds => exact .ok (ran.bind ran') holds
  | fault failed holds => exact .fault (ran.bind failed) holds

/-- A step whose result is known. -/
theorem Parses.after {p : Parser α} (ran : p c = some (.ok (a, c')))
    (rest : Parses (fun n => next n a) c' good' bad) :
    Parses (fun n => p >>= next n) c good' bad :=
  .call (.of_eq ran) rest

/-- A call of which it is known what holds behind it. -/
theorem Parses.bind (first : Parses p c good bad)
    (rest : ∀ a c', good a c' → Parses (fun n => next n a) c' good' bad')
    (faulty : ∀ f, bad f → bad' f) : Parses (fun n => p n >>= next n) c good' bad' := by
  cases first with
  | ok ran holds => exact .call ran (rest _ _ holds)
  | fault failed holds => exact .fault failed.bind_error (faulty _ holds)

theorem Parses.pure (holds : good a c) : Parses (fun _ => pure a) c good bad :=
  .ok (.of_eq rfl) holds

theorem Parses.stop {f : ReadFault} (holds : bad f) :
    Parses (fun _ => Descent.fault f) c good bad :=
  .fault (.of_eq rfl) holds

/-- A step that fails. -/
theorem Parses.fails {p : Parser α} {f : ReadFault} (failed : p c = some (.error (.fault f)))
    (holds : bad f) : Parses (fun n => p >>= next n) c good' bad :=
  .fault (Ends.of_eq failed).bind_error holds

theorem Parses.mono {good' : α → Cursor → Prop} (parses : Parses p c good bad)
    (better : ∀ a c', good a c' → good' a c') (faulty : ∀ f, bad f → bad' f) :
    Parses p c good' bad' := by
  cases parses with
  | ok ran holds => exact .ok ran (better _ _ holds)
  | fault failed holds => exact .fault failed (faulty _ holds)

end Rules

/-! ### Between two parts of the text -/

/-- The cursor behind a part of the text, with `k` constructs entered. -/
def behind (front : List Char) (k : Nat) : Cursor where
  offset := byteLength front
  depth := k

section Places

variable {text front back used : List Char} {k : Nat}

theorem getOffset_behind : getOffset (behind front k) =
    some (.ok (byteLength front, behind front k)) :=
  rfl

theorem advance_behind {n : Nat} (length : byteLength used = n) :
    advance n (behind front k) = some (.ok ((), behind (front ++ used) k)) := by
  have moved : behind (front ++ used) k = ⟨byteLength front + n, k⟩ := by
    rw [behind, Utf8.byteLength_append, length]
  rw [moved]
  rfl

theorem enter_behind (few : k < maxDepth) :
    enter (behind front k) = some (.ok ((), behind front (k + 1))) := by
  have fits : ¬ maxDepth < k + 1 := Nat.not_lt.mpr few
  have entered : enter (behind front k) =
      (if maxDepth < k + 1 then Descent.fault (.tooDeep (byteLength front)) else Pure.pure ())
        (behind front (k + 1)) := rfl
  rw [entered, if_neg fits]
  rfl

theorem enter_behind_of_deep (many : ¬ k < maxDepth) :
    enter (behind front k) = some (.error (.fault (.tooDeep (byteLength front)))) := by
  have deep : maxDepth < k + 1 := Nat.lt_succ_of_le (Nat.not_lt.mp many)
  have entered : enter (behind front k) =
      (if maxDepth < k + 1 then Descent.fault (.tooDeep (byteLength front)) else Pure.pure ())
        (behind front (k + 1)) := rfl
  rw [entered, if_pos deep]
  rfl

theorem leave_behind : leave (behind front (k + 1)) = some (.ok ((), behind front k)) :=
  rfl

variable (split : text = front ++ back)
include split

theorem rest_behind : rest text (behind front k) = some (.ok (back, behind front k)) := by
  have cut : Utf8.dropBytes? (byteLength front) text = some back := by
    rw [split, Utf8.dropBytes?_append]
  rw [rest, bind_of_ok getOffset_behind, cut]
  rfl

theorem peek_behind : peek text (behind front k) = some (.ok (back.head?, behind front k)) := by
  rw [peek, bind_of_ok (rest_behind split)]
  rfl

theorem startsWith_behind (start : List Char) :
    startsWith text start (behind front k) =
      some (.ok (start.isPrefixOf back, behind front k)) := by
  rw [startsWith, bind_of_ok (rest_behind split)]
  rfl

theorem bump_end (atEnd : back = []) :
    bump text (behind front k) = some (.ok (none, behind front k)) := by
  subst atEnd
  rw [bump, bind_of_ok (peek_behind split)]
  rfl

omit split

theorem bump_behind {c : Char} (split : text = front ++ c :: back) :
    bump text (behind front k) = some (.ok (some c, behind (front ++ [c]) k)) := by
  have length : byteLength [c] = Utf8.charLength c := by simp
  rw [bump, bind_of_ok (peek_behind split)]
  exact bind_of_ok (advance_behind length)

/-- The text from one place to another behind it. -/
theorem textFrom_behind (split : text = front ++ (used ++ back)) :
    textFrom text (byteLength front) (behind (front ++ used) k) =
      some (.ok (String.ofList used, behind (front ++ used) k)) := by
  have cut : Utf8.dropBytes? (byteLength front) text = some (used ++ back) := by
    rw [split, Utf8.dropBytes?_append]
  have order : ¬ byteLength (front ++ used) < byteLength front := by
    rw [Utf8.byteLength_append]
    omega
  have length : byteLength (front ++ used) - byteLength front = byteLength used := by
    rw [Utf8.byteLength_append, Nat.add_sub_cancel_left]
  rw [textFrom, bind_of_ok getOffset_behind]
  simp only [cut, order, if_false, length, Utf8.takeBytes?_append]
  rfl

/-! ### Tokens -/

/-- `token` is the part of a text in front of the first character that ends a token. -/
structure CutsToken (back token rest : List Char) : Prop where
  split : back = token ++ rest
  plain : ∀ c ∈ token, Datum.isDelimiter c = false
  ends : ∀ c ∈ rest.head?, Datum.isDelimiter c = true

theorem CutsToken.of_delimiter {c : Char} (delimits : Datum.isDelimiter c = true) :
    CutsToken (c :: back) [] (c :: back) where
  split := rfl
  plain _ mem := by cases mem
  ends _ first := Option.some.inj first ▸ delimits

theorem CutsToken.cons {c : Char} {token rest : List Char} (cuts : CutsToken back token rest)
    (plain : Datum.isDelimiter c = false) : CutsToken (c :: back) (c :: token) rest where
  split := congrArg (c :: ·) cuts.split
  plain := List.forall_mem_cons.mpr ⟨plain, cuts.plain⟩
  ends := cuts.ends

theorem skipToken_behind (split : text = front ++ back) :
    ∃ token rest, CutsToken back token rest ∧
      Ends (skipToken text) (behind front k) (.ok ((), behind (front ++ token) k)) := by
  induction back generalizing front with
  | nil =>
    refine ⟨[], [], ⟨rfl, fun _ mem => (by cases mem), fun _ mem => (by cases mem)⟩, .succ ?_⟩
    rw [List.append_nil]
    exact .after (peek_behind split) (.of_eq rfl)
  | cons c back ih =>
    cases delimits : Datum.isDelimiter c with
    | true =>
      refine ⟨[], c :: back, .of_delimiter delimits, .succ (.after (peek_behind split) ?_)⟩
      simp only [List.head?_cons, delimits, if_true, List.append_nil]
      exact .of_eq rfl
    | false =>
      have split' : text = (front ++ [c]) ++ back := by simp [split]
      obtain ⟨token, rest, cuts, ran⟩ := ih split'
      rw [List.append_assoc] at ran
      refine ⟨c :: token, rest, cuts.cons delimits, .succ (.after (peek_behind split) ?_)⟩
      simp only [List.head?_cons, delimits, Bool.false_eq_true, if_false]
      exact .after (bump_behind split) ran

/-- A token is read up to the next character that ends one. -/
theorem readToken_behind (split : text = front ++ back) :
    ∃ token rest, CutsToken back token rest ∧ Ends (readToken text) (behind front k)
      (.ok (String.ofList token, behind (front ++ token) k)) := by
  obtain ⟨token, rest, cuts, ran⟩ := skipToken_behind (k := k) split
  have cut := split.trans (congrArg (front ++ ·) cuts.split)
  exact ⟨token, rest, cuts, .after getOffset_behind (.bind ran (.of_eq (textFrom_behind cut)))⟩

end Places

end LispBridge.Descent
