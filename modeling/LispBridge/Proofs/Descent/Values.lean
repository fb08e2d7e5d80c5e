import LispBridge.Proofs.Datum.Canonical
import LispBridge.Proofs.Descent.Characters

/-!
Values: each function for one ends, and takes what the reader takes.

* `Ready`: the reader is where the cursor is, and ready for a value.
* `Takes`, `TakesList`, `TakesItems`: a part of the text that is a value to the reader, or the rest
  of one.
* `reads`: values and constructs are read everywhere, by induction on what is left of the text. The
  steps are `readValue_step` and `readItems_step`.
-/

namespace LispBridge.Descent

open Reader Datum

variable {text front back cs used rest : List Char} {k n : Nat} {d : Datum} {items : List Datum}

/-! ### The reader at the cursor -/

/-- The reader has read `front`, is inside `k` constructs and takes a value next. -/
structure Ready (single : Bool) (o : State) (front : List Char) (k : Nat) : Prop where
  between : o.mode = .between
  seen : o.seen = front.reverse
  count : o.count = front.length
  depth : o.enclosing.length = k
  room : o.isFull single = false

section Ready

variable {single : Bool} {o : State}

theorem Ready.offset (ready : Ready single o front k) : o.offset = Utf8.byteLength front := by
  rw [State.offset, ready.seen, Utf8.byteLength_reverse]

theorem Ready.passed (ready : Ready single o front k) (cs : List Char) :
    Ready single (o.passed cs) (front ++ cs) k where
  between := ready.between
  seen := by simp [State.passed, ready.seen]
  count := by simp [State.passed, ready.count]
  depth := ready.depth
  room := ready.room

/-- A state inside one construct more. -/
def inside (o : State) (op : Open) : State :=
  { o with mode := .between, enclosing := op :: o.enclosing }

theorem Ready.inside (ready : Ready single o front k) (op : Open) :
    Ready single (inside o op) front (k + 1) where
  between := rfl
  seen := ready.seen
  count := ready.count
  depth := congrArg (· + 1) ready.depth
  room := State.isFull_of_enclosing single (List.cons_ne_nil _ _)

theorem Ready.entered (ready : Ready single o front k) (few : k < maxDepth) (op : Open)
    (cs : List Char) : o.outcomeInside single op cs = (Descent.inside o op).outcome single cs :=
  State.outcomeInside_of_room (ready.depth ▸ few)

theorem Ready.tooDeep (ready : Ready single o front k) (many : ¬ k < maxDepth) (op : Open)
    (cs : List Char) :
    o.outcomeInside single op cs = .error (.tooDeep (Utf8.byteLength front)) := by
  rw [State.outcomeInside_of_deep (ready.depth ▸ many), ready.offset]

end Ready

/-! ### What is taken -/

/-- Inside `k` constructs, `used` is the value `d` in front of `rest`. -/
structure Takes (front used rest : List Char) (k : Nat) (d : Datum) : Prop where
  nonempty : used ≠ []
  fits : Stands k d
  same : ∀ (single : Bool) (o : State), Ready single o front k →
    o.outcome single (used ++ rest) = ((o.passed used).accept d).outcome single rest

theorem Takes.length_lt (takes : Takes front used rest k d) :
    rest.length < (used ++ rest).length := by
  have positive := List.length_pos_iff.mpr takes.nonempty
  rw [List.length_append]
  omega

/-- Inside `k` constructs and one more with the elements `items`, `used` goes up to the end of the
innermost one, and `d` is the list of all its elements. -/
structure TakesItems (front used rest : List Char) (k : Nat) (items : List Datum) (d : Datum) :
    Prop where
  nonempty : used ≠ []
  fits : Stands k d
  same : ∀ (single : Bool) (o : State) (op : Open) (outer : List Open),
    Ready single o front (k + 1) → o.enclosing = op :: outer → op.Collects items →
      o.outcome single (used ++ rest) = (o.closed op outer used d).outcome single rest

/-- That a parser ends and takes what is left of the value behind `front`, or fails as the reader
does. -/
def ReadsValueFrom (p : Nat → Parser Datum) (c : Cursor) (front back : List Char) (k : Nat) :
    Prop :=
  Parses p c
    (fun d c' => ∃ used rest, back = used ++ rest ∧ Takes front used rest k d ∧
      c' = behind (front ++ used) k)
    (fun f => ∀ (single : Bool) (o : State), Ready single o front k →
      o.outcome single back = .error f)

/-- That a parser ends and takes one value, or fails as the reader does. -/
def ReadsValue (p : Nat → Parser Datum) (front back : List Char) (k : Nat) : Prop :=
  ReadsValueFrom p (behind front k) front back k

/-- That a parser ends and takes the rest of a construct, or fails as the reader does. -/
def ReadsItems (p : Nat → Parser Datum) (front back : List Char) (k : Nat) (items : List Datum) :
    Prop :=
  Parses p (behind front (k + 1))
    (fun d c => ∃ used rest, back = used ++ rest ∧ TakesItems front used rest k items d ∧
      c = behind (front ++ used) k)
    (fun f => ∀ (single : Bool) (o : State) (op : Open) (outer : List Open),
      Ready single o front (k + 1) → o.enclosing = op :: outer → op.Collects items →
        o.outcome single back = .error f)

/-- The next value of a text, and what is left behind it. -/
inductive Next (front : List Char) (k : Nat) (back : List Char) : Option Datum → Cursor → Prop
  | none {gap : List Char} (skips : Skips back gap []) :
      Next front k back none (behind (front ++ gap) k)
  | some {gap used rest : List Char} {d : Datum} (skips : Skips back gap (used ++ rest))
      (takes : Takes (front ++ gap) used rest k d) :
      Next front k back (some d) (behind (front ++ gap ++ used) k)

/-- That a parser ends and takes the next value if there is one, or fails as the reader does outside
of lists and vectors. -/
def ReadsNext (p : Nat → Parser (Option Datum)) (front back : List Char) (k : Nat) : Prop :=
  Parses p (behind front k) (Next front k back)
    (fun f => ∀ (single : Bool) (o : State), Ready single o front k →
      (∀ op ∈ o.enclosing.head?, ¬ op.IsBracket) → o.outcome single back = .error f)

/-- Values are read where less than `n` characters are left. -/
def ValuesRead (text : List Char) (n : Nat) : Prop :=
  ∀ (front : List Char) (c : Char) (r : List Char) (k : Nat), text = front ++ c :: r →
    (c :: r).length < n → Solid (c :: r) → c ≠ ')' →
      ReadsValue (readValue text c) front (c :: r) k

/-- Constructs are read to their end where less than `n` characters are left. -/
def ItemsRead (text : List Char) (n : Nat) : Prop :=
  ∀ (front back : List Char) (k : Nat) (items : List Datum), text = front ++ back →
    back.length < n → k < maxDepth → (∀ d ∈ items, Stands (k + 1) d) →
      ReadsItems (readItems text items) front back k items

/-! ### Tokens -/

/-- A token that begins with no character that begins anything else. -/
theorem readToken_reads {c : Char} {r : List Char} (split : text = front ++ c :: r)
    (plain : Datum.isDelimiter c = false) (begins : c ≠ '#' ∧ c ≠ '`' ∧ c ≠ ',') :
    ReadsValue (fun n => do return .ofToken (← readToken text n).toList) front (c :: r) k := by
  obtain ⟨cs, rest, cuts, ran⟩ := readToken_behind (k := k) split
  refine .call ran (.pure ⟨cs, rest, cuts.split, ?_, rfl⟩)
  rw [String.toList_ofList]
  have token : IsToken cs := by
    cases cs with
    | nil =>
      obtain rfl := cuts.split
      exact absurd (cuts.ends c rfl) (by simp [plain])
    | cons d cs =>
      obtain rfl := (List.cons.inj cuts.split).1
      refine ⟨List.cons_ne_nil _ _, cuts.plain, fun d first => ?_⟩
      obtain rfl := Option.some.inj first
      exact begins
  exact ⟨token.nonempty, stands_ofToken cs, fun single o ready =>
    State.outcome_token token ready.between ready.room cuts.ends⟩

/-! ### The next value -/

theorem readValue_close : Ends (readValue text ')') (behind front k)
    (.error (.fault (.unexpectedClose (Utf8.byteLength front)))) :=
  .succ (.after getOffset_behind (.of_eq rfl))

/-- The value that solid text begins with. -/
theorem readSolid_parses {c : Char} {r : List Char} (values : ValuesRead text n)
    (split : text = front ++ c :: r) (shorter : (c :: r).length < n) (solid : Solid (c :: r))
    (close : c ≠ ')') :
    Parses (fun n => readValue text c n >>= fun d => pure (some d)) (behind front k)
      (fun next c' => ∃ d used rest, next = some d ∧ c :: r = used ++ rest ∧
        Takes front used rest k d ∧ c' = behind (front ++ used) k)
      (fun f => ∀ (single : Bool) (o : State), Ready single o front k →
        o.outcome single (c :: r) = .error f) := by
  refine .bind (values front c r k split shorter solid close) ?_ fun _ failed => failed
  rintro d _ ⟨used, rest, cut, takes, rfl⟩
  exact .pure ⟨d, used, rest, rfl, cut, takes, rfl⟩

theorem read_of_solid {c : Char} {r : List Char} (values : ValuesRead text n)
    (split : text = front ++ c :: r) (shorter : (c :: r).length < n) (solid : Solid (c :: r))
    (close : c ≠ ')') :
    Parses (read text) (behind front k)
      (fun next c' => ∃ d used rest, next = some d ∧ c :: r = used ++ rest ∧
        Takes front used rest k d ∧ c' = behind (front ++ used) k)
      (fun f => ∀ (single : Bool) (o : State), Ready single o front k →
        o.outcome single (c :: r) = .error f) :=
  .succ (.call (skipAtmosphere_of_solid split solid) (.after (peek_behind split)
    (readSolid_parses values split shorter solid close)))

theorem read_reads (values : ValuesRead text n) (split : text = front ++ back)
    (shorter : back.length < n) : ReadsNext (read text) front back k := by
  obtain ⟨gap, rest, skips, skipped⟩ := skipAtmosphere_behind (k := k) split
  have split' : text = (front ++ gap) ++ rest := by rw [split, skips.split, List.append_assoc]
  have shorter' : rest.length < n := Nat.lt_of_le_of_lt skips.length_le shorter
  refine Parses.succ (.call skipped (.after (peek_behind split') ?_))
  rcases rest with - | ⟨c, r⟩
  · exact .pure (.none skips)
  by_cases close : c = ')'
  · subst close
    refine .fault readValue_close.bind_error fun single o ready outside => ?_
    have ready' := ready.passed gap
    rw [skips.same single o ready.between, ← ready'.offset]
    exact State.outcome_unexpectedClose ready'.between ready'.room outside r
  · refine (readSolid_parses values split' shorter' skips.solid close).mono ?_ ?_
    · rintro _ _ ⟨d, used, rest, rfl, cut, takes, rfl⟩
      exact .some (cut ▸ skips) takes
    · intro f failed single o ready _
      rw [skips.same single o ready.between, failed single _ (ready.passed gap)]

/-! ### Prefixes -/

theorem readPrefixed_reads (cs : List Char) {head : String} {bytes : Nat}
    (values : ValuesRead text n) (known : head ∈ prefixHeads) (length : Utf8.byteLength cs = bytes)
    (split : text = front ++ (cs ++ back)) (shorter : back.length < n)
    (opens : ∀ (single : Bool) (o : State), Ready single o front k →
      o.outcome single (cs ++ back) = (o.passed cs).outcomeInside single (.prefixed head) back) :
    ReadsValue (readPrefixed text bytes head) front (cs ++ back) k := by
  have split' : text = (front ++ cs) ++ back := by rw [split, List.append_assoc]
  refine Parses.succ (.after (advance_behind length) ?_)
  by_cases few : k < maxDepth
  · have opens' (single : Bool) (o : State) (ready : Ready single o front k) :
        o.outcome single (cs ++ back) =
          (inside (o.passed cs) (.prefixed head)).outcome single back := by
      rw [opens single o ready, (ready.passed cs).entered few]
    refine .after (enter_behind few) (.bind (read_reads values split' shorter) ?_ ?_)
    · rintro _ _ (skips | @⟨gap, used, rest, d, skips, takes⟩)
      · refine .stop fun single o ready => ?_
        rw [opens' single o ready, skips.same single _ rfl]
        rfl
      · refine .after leave_behind (.pure ⟨cs ++ (gap ++ used), rest, ?_, ⟨?_, ?_, ?_⟩, ?_⟩)
        · rw [skips.split, List.append_assoc, List.append_assoc]
        · simp [takes.nonempty]
        · exact stands_prefixed few known takes.fits
        · intro single o ready
          have ready' := ((ready.passed cs).inside (.prefixed head)).passed gap
          have whole : cs ++ (gap ++ used) ++ rest = cs ++ back := by
            rw [skips.split, List.append_assoc, List.append_assoc]
          rw [whole, opens' single o ready, skips.same single _ rfl, takes.same single _ ready',
            ← State.passed_passed, ← State.passed_passed]
          rfl
        · simp only [List.append_assoc]
    · intro f failed single o ready
      rw [opens' single o ready]
      exact failed single _ ((ready.passed cs).inside _) fun op first => by
        obtain rfl := Option.some.inj first
        exact id
  · refine .fails (enter_behind_of_deep few) fun single o ready => ?_
    rw [opens single o ready, (ready.passed cs).tooDeep few]

/-! ### Constructs with elements -/

/-- Behind the opening of a list or vector inside `k` constructs, `used` is the rest of it, and `d`
the list of its elements. -/
structure TakesList (front used rest : List Char) (k : Nat) (d : Datum) : Prop where
  nonempty : used ≠ []
  fits : Stands k d
  same : ∀ (single : Bool) (o : State) (op : Open), Ready single o front k → op.Collects [] →
    o.outcomeInside single op (used ++ rest) =
      ((inside o op).closed op o.enclosing used d).outcome single rest

theorem readList_parses (constructs : ItemsRead text n) (split : text = front ++ back)
    (shorter : back.length < n) :
    Parses (readList text) (behind front k)
      (fun d c => ∃ used rest, back = used ++ rest ∧ TakesList front used rest k d ∧
        c = behind (front ++ used) k)
      (fun f => ∀ (single : Bool) (o : State) (op : Open), Ready single o front k →
        op.Collects [] → o.outcomeInside single op back = .error f) := by
  refine .succ ?_
  by_cases few : k < maxDepth
  · have none : ∀ d ∈ ([] : List Datum), Stands (k + 1) d := fun _ mem => by cases mem
    refine .after (enter_behind few)
      ((constructs front back k [] split shorter few none).mono ?_ ?_)
    · rintro d _ ⟨used, rest, rfl, takes, rfl⟩
      refine ⟨used, rest, rfl,
        ⟨takes.nonempty, takes.fits, fun single o op ready collects => ?_⟩, rfl⟩
      rw [ready.entered few, takes.same single _ op _ (ready.inside op) rfl collects]
    · intro f failed single o op ready collects
      rw [ready.entered few]
      exact failed single _ op _ (ready.inside op) rfl collects
  · refine .fails (enter_behind_of_deep few) fun single o op ready _ => ?_
    rw [ready.tooDeep few]

theorem readOpen_reads (constructs : ItemsRead text n) (split : text = front ++ '(' :: back)
    (shorter : back.length < n) :
    ReadsValue (fun n => do let _ ← bump text; readList text n) front ('(' :: back) k := by
  have split' : text = (front ++ ['(']) ++ back := by simp [split]
  refine .after (bump_behind split) ((readList_parses constructs split' shorter).mono ?_ ?_)
  · rintro d _ ⟨used, rest, rfl, takes, rfl⟩
    refine ⟨'(' :: used, rest, rfl, ⟨List.cons_ne_nil _ _, takes.fits, fun single o ready => ?_⟩,
      by simp⟩
    rw [List.cons_append, State.outcome_open ready.between ready.room,
      takes.same single _ (.list []) (ready.passed ['(']) rfl,
      show '(' :: used = ['('] ++ used from rfl, ← State.passed_passed]
    rfl
  · intro f failed single o ready
    rw [State.outcome_open ready.between ready.room]
    exact failed single _ (.list []) (ready.passed ['(']) rfl

/-! ### Characters and vectors -/

/-- The text of a vector is its value. -/
theorem closed_vector (o : State) (opening used : List Char) (list : Datum) :
    (inside (o.passed opening) (.vector o.count)).closed (.vector o.count) o.enclosing used list =
      (o.passed (opening ++ used)).accept (.symbol (String.ofList (opening ++ used))) := by
  have own : ((inside (o.passed opening) (.vector o.count)).passed used).textFrom o.count =
      .symbol (String.ofList (opening ++ used)) := by
    have seen : ((inside (o.passed opening) (.vector o.count)).passed used).seen =
        (opening ++ used).reverse ++ o.seen := by
      simp [inside, State.passed]
    refine textFrom_eq seen ?_
    simp [inside, State.passed, Nat.add_assoc]
  rw [State.closed, Open.worth, own, ← State.passed_passed]
  rfl

/-- Behind `#\`, any character is taken, and what follows it in a token. -/
theorem readCharacter_reads (split : text = front ++ '#' :: '\\' :: back) :
    ReadsValueFrom (fun n => (do
        let _ ← bump text
        let _ ← readToken text n
        return .symbol (← textFrom text (Utf8.byteLength front)) : Parser Datum))
      (behind (front ++ ['#', '\\']) k) front ('#' :: '\\' :: back) k := by
  have split' : text = (front ++ ['#', '\\']) ++ back := by simp [split]
  rcases back with - | ⟨c, r⟩
  · obtain ⟨token, rest, cuts, ran⟩ := readToken_behind (k := k) split'
    obtain ⟨rfl, rfl⟩ := List.nil_eq_append_iff.mp cuts.split
    rw [List.append_nil] at ran
    refine .after (bump_end split' rfl) (.call ran (.after (textFrom_behind split) ?_))
    exact .pure ⟨['#', '\\'], [], rfl, ⟨List.cons_ne_nil _ _, stands_hash _, fun single o ready =>
      State.outcome_character ready.between ready.room⟩, rfl⟩
  · have split'' : text = (front ++ ['#', '\\'] ++ [c]) ++ r := by simp [split]
    obtain ⟨token, rest, cuts, ran⟩ := readToken_behind (k := k) split''
    obtain rfl := cuts.split
    have place : front ++ ['#', '\\'] ++ [c] ++ token = front ++ '#' :: '\\' :: c :: token := by
      simp
    rw [place] at ran
    have name : IsName ('#' :: '\\' :: c :: token) := ⟨c, token, rfl, cuts.plain⟩
    have cut : text = front ++ ('#' :: '\\' :: c :: token ++ rest) := split
    refine .after (bump_behind split') (.call ran (.after (textFrom_behind cut) ?_))
    exact .pure ⟨'#' :: '\\' :: c :: token, rest, rfl, ⟨List.cons_ne_nil _ _, stands_hash _,
      fun single o ready => State.outcome_name name ready.between ready.room cuts.ends⟩, rfl⟩

theorem isHashToken_of_cuts {cs : List Char} (cuts : CutsToken back cs rest)
    (bar : back.head? ≠ some '|') (backslash : back.head? ≠ some '\\') :
    IsHashToken ('#' :: cs) where
  plain := List.forall_mem_cons.mpr ⟨rfl, cuts.plain⟩
  begins := by
    refine ⟨cs, rfl, fun c first => ?_⟩
    have first' : back.head? = some c := by
      rw [cuts.split, List.head?_append, Option.mem_def.mp first]
      rfl
    exact ⟨fun same => bar (same ▸ first'), fun same => backslash (same ▸ first')⟩

/-- A token that starts with `#` and the vector behind it. -/
theorem TakesList.vector (token : IsHashToken ('#' :: cs))
    (takes : TakesList (front ++ ('#' :: cs ++ ['('])) used rest k d) :
    Takes front ('#' :: cs ++ ['('] ++ used) rest k
      (.symbol (String.ofList ('#' :: cs ++ ['('] ++ used))) where
  nonempty := by simp
  fits := stands_hash _
  same single o ready := by
    have whole : '#' :: cs ++ ['('] ++ used ++ rest = '#' :: cs ++ '(' :: (used ++ rest) := by simp
    rw [whole, State.outcome_vector token ready.between ready.room,
      takes.same single _ (.vector o.count) (ready.passed _) trivial]
    exact congrArg (fun s => State.outcome single s rest) (closed_vector o _ used d)

theorem readVector_reads (constructs : ItemsRead text n) (token : IsHashToken ('#' :: cs))
    (split : text = front ++ ('#' :: cs ++ '(' :: back)) (shorter : back.length < n) :
    ReadsValueFrom (fun n => (do
        let _ ← bump text
        let _ ← readList text n
        return .symbol (← textFrom text (Utf8.byteLength front)) : Parser Datum))
      (behind (front ++ '#' :: cs) k) front ('#' :: cs ++ '(' :: back) k := by
  have split' : text = (front ++ '#' :: cs) ++ '(' :: back := by rw [split, List.append_assoc]
  have opened : text = (front ++ ('#' :: cs ++ ['('])) ++ back := by simp [split]
  have place : front ++ '#' :: cs ++ ['('] = front ++ ('#' :: cs ++ ['(']) := by simp
  refine .after (bump_behind split') ?_
  rw [place]
  refine .bind (readList_parses constructs opened shorter) ?_ fun f failed single o ready => ?_
  · rintro d _ ⟨used, rest, rfl, takes, rfl⟩
    rw [List.append_assoc]
    have cut : text = front ++ ('#' :: cs ++ ['('] ++ used ++ rest) := by simp [split]
    exact .after (textFrom_behind cut)
      (.pure ⟨'#' :: cs ++ ['('] ++ used, rest, by simp, takes.vector token, rfl⟩)
  · have outcome := State.outcome_vector token ready.between ready.room back
    exact outcome.trans (failed single _ (.vector o.count) (ready.passed _) trivial)

/-- A token that starts with `#`, with no vector behind it. -/
theorem takes_hashToken (token : IsHashToken ('#' :: cs)) (cuts : CutsToken back cs rest)
    (vector : rest.head? ≠ some '(') (quote : back.head? ≠ some '\'') :
    Takes front ('#' :: cs) rest k (.symbol (String.ofList ('#' :: cs))) where
  nonempty := List.cons_ne_nil _ _
  fits := stands_hash cs
  same single o ready := by
    refine State.outcome_hashToken token ready.between ready.room fun c first =>
      ⟨cuts.ends c first, ?_, ?_⟩
    · rintro rfl
      exact vector first
    · rintro hash rfl
      obtain rfl : cs = [] := (List.cons.inj hash).2
      exact quote (cuts.split ▸ first)

/-- Behind another token that starts with `#`, a vector may follow. -/
theorem readHashToken_reads (constructs : ItemsRead text n) (split : text = front ++ '#' :: back)
    (shorter : back.length < n) (bar : back.head? ≠ some '|') (backslash : back.head? ≠ some '\\')
    (quote : back.head? ≠ some '\'') :
    ReadsValueFrom (fun n => (do
        let _ ← readToken text n
        match ← peek text with
        | some '(' =>
          let _ ← bump text
          let _ ← readList text n
          return .symbol (← textFrom text (Utf8.byteLength front))
        | _ => return .symbol (← textFrom text (Utf8.byteLength front)) : Parser Datum))
      (behind (front ++ ['#']) k) front ('#' :: back) k := by
  have split' : text = (front ++ ['#']) ++ back := by simp [split]
  obtain ⟨cs, rest, cuts, ran⟩ := readToken_behind (k := k) split'
  have token := isHashToken_of_cuts cuts bar backslash
  have place : front ++ ['#'] ++ cs = front ++ '#' :: cs := by simp
  rw [place] at ran
  have cut : text = front ++ ('#' :: cs ++ rest) := by rw [split, cuts.split, List.cons_append]
  have cut' : text = (front ++ '#' :: cs) ++ rest := by rw [cut, List.append_assoc]
  refine .call ran (.after (peek_behind cut') ?_)
  by_cases vector : rest.head? = some '('
  · obtain ⟨r, rfl⟩ := List.head?_eq_some_iff.mp vector
    rw [cuts.split] at shorter ⊢
    have shorter' : r.length < n := by
      rw [List.length_append, List.length_cons] at shorter
      omega
    exact readVector_reads constructs token cut shorter'
  · split
    · next isOpen => exact absurd isOpen vector
    · exact .after (textFrom_behind cut) (.pure ⟨'#' :: cs, rest,
        congrArg ('#' :: ·) cuts.split, takes_hashToken token cuts vector quote, rfl⟩)

theorem readDispatch_reads (constructs : ItemsRead text n) (split : text = front ++ '#' :: back)
    (shorter : back.length < n) (bar : back.head? ≠ some '|') (quote : back.head? ≠ some '\'') :
    ReadsValue (readDispatch text) front ('#' :: back) k := by
  have split' : text = (front ++ ['#']) ++ back := by simp [split]
  refine Parses.succ (.after getOffset_behind (.after (bump_behind split)
    (.after (peek_behind split') ?_)))
  by_cases backslash : back.head? = some '\\'
  · obtain ⟨r, rfl⟩ := List.head?_eq_some_iff.mp backslash
    refine .after (bump_behind split') ?_
    rw [List.append_assoc]
    exact readCharacter_reads split
  · split
    · next isBackslash => exact absurd isBackslash backslash
    · exact readHashToken_reads constructs split shorter bar backslash quote

/-! ### All values -/

/-- The reader behind an element of a construct. -/
theorem Takes.element {gap : List Char} {single : Bool} {o : State} {op : Open}
    {outer : List Open} (takes : Takes (front ++ gap) used rest (k + 1) d)
    (skips : Skips back gap (used ++ rest)) (ready : Ready single o front (k + 1))
    (inside : o.enclosing = op :: outer) (collects : op.Collects items) :
    ∃ o' op', Ready single o' (front ++ gap ++ used) (k + 1) ∧ o'.enclosing = op' :: outer ∧
      op'.Collects (d :: items) ∧ o.outcome single back = o'.outcome single rest ∧
      ∀ cs list, o'.closed op' outer cs list = o.closed op outer (gap ++ (used ++ cs)) list := by
  have ready' := ready.passed gap
  have behind' := ready'.passed used
  obtain ⟨op', inside', collects', same⟩ :=
    State.accept_element (o := (o.passed gap).passed used) collects inside d
  refine ⟨((o.passed gap).passed used).accept d, op', ?_, inside', collects', ?_, ?_⟩
  · refine ⟨rfl, behind'.seen, behind'.count, ?_,
      State.isFull_of_enclosing single (by simp [inside'])⟩
    have depth := behind'.depth
    rw [show ((o.passed gap).passed used).enclosing = op :: outer from inside] at depth
    rw [inside']
    exact depth
  · rw [skips.same single o ready.between, takes.same single _ ready']
  · intro cs list
    rw [same, State.closed_passed, State.closed_passed]

/-- The closing parenthesis. -/
theorem takesItems_close {gap : List Char} (few : k < maxDepth)
    (each : ∀ d ∈ items, Stands (k + 1) d) (skips : Skips back gap (')' :: rest)) :
    TakesItems front (gap ++ [')']) rest k items (.ofItems items.reverse) where
  nonempty := by simp
  fits := stands_ofItems few fun d mem => each d (List.mem_reverse.mp mem)
  same single o op outer ready inside collects := by
    have whole : gap ++ [')'] ++ rest = back := by simp [skips.split]
    rw [whole, skips.same single o ready.between,
      State.outcome_close collects (ready.passed gap).between inside, State.closed_passed]

/-- An element in front of the rest of a construct. -/
theorem TakesItems.cons {gap used' rest' : List Char} {list : Datum}
    (takes' : TakesItems (front ++ gap ++ used) used' rest' k (d :: items) list)
    (takes : Takes (front ++ gap) used (used' ++ rest') (k + 1) d)
    (skips : Skips back gap (used ++ (used' ++ rest'))) :
    TakesItems front (gap ++ (used ++ used')) rest' k items list where
  nonempty := by simp [takes.nonempty]
  fits := takes'.fits
  same single o op outer ready inside collects := by
    obtain ⟨o', op', ready', inside', collects', same, closed⟩ :=
      takes.element skips ready inside collects
    have whole : gap ++ (used ++ used') ++ rest' = back := by simp [skips.split]
    rw [whole, same, takes'.same single o' op' outer ready' inside' collects', closed]

theorem readItems_step (values : ValuesRead text (n + 1)) (constructs : ItemsRead text n) :
    ItemsRead text (n + 1) := by
  intro front back k items split shorter few each
  obtain ⟨gap, rest, skips, skipped⟩ := skipAtmosphere_behind (k := k + 1) split
  have split' : text = (front ++ gap) ++ rest := by rw [split, skips.split, List.append_assoc]
  have shorter' : rest.length < n + 1 := Nat.lt_of_le_of_lt skips.length_le shorter
  refine Parses.succ (.call skipped (.after (peek_behind split') ?_))
  rcases rest with - | ⟨c, r⟩
  · refine .stop fun single o op outer ready inside collects => ?_
    rw [skips.same single o ready.between]
    exact State.outcome_unterminatedList collects (ready.passed gap).between inside
  by_cases close : c = ')'
  · subst close
    exact .after (bump_behind split') (.after leave_behind (.pure ⟨gap ++ [')'], r,
      by simp [skips.split], takesItems_close few each skips, by simp⟩))
  split
  · next none => cases none
  · next isClose => exact absurd (Option.some.inj isClose) close
  refine .bind (read_of_solid values split' shorter' skips.solid close) ?_ ?_
  · rintro _ _ ⟨d, used, rest, rfl, cut, takes, rfl⟩
    rw [cut] at skips shorter'
    have split'' : text = (front ++ gap ++ used) ++ rest := by
      rw [split', cut, List.append_assoc _ used]
    have shorter'' : rest.length < n :=
      Nat.lt_of_lt_of_le takes.length_lt (Nat.le_of_lt_succ shorter')
    have each' := List.forall_mem_cons.mpr ⟨takes.fits, each⟩
    refine (constructs _ rest k (d :: items) split'' shorter'' few each').mono ?_ ?_
    · rintro list _ ⟨used', rest', rfl, takes', rfl⟩
      exact ⟨gap ++ (used ++ used'), rest', by simp [skips.split], takes'.cons takes skips, by simp⟩
    · intro f failed single o op outer ready inside collects
      obtain ⟨o', op', ready', inside', collects', same, -⟩ :=
        takes.element skips ready inside collects
      rw [same, failed single o' op' outer ready' inside' collects']
  · intro f failed single o op outer ready inside collects
    rw [skips.same single o ready.between, failed single _ (ready.passed gap)]

/-- The bare prefixes `'`, `` ` `` and `#'`, and `,@`. -/
theorem readPrefix_reads (cs : List Char) {head : String} {bytes : Nat} (values : ValuesRead text n)
    (known : (cs, head) ∈ State.prefixes) (length : Utf8.byteLength cs = bytes)
    (split : text = front ++ (cs ++ back)) (shorter : back.length < n) :
    ReadsValue (readPrefixed text bytes head) front (cs ++ back) k := by
  refine readPrefixed_reads cs values ?_ length split shorter fun single o ready =>
    State.outcome_prefix known ready.between ready.room back
  simp only [State.prefixes, List.mem_cons, Prod.mk.injEq, List.not_mem_nil, or_false] at known
  rcases known with ⟨-, rfl⟩ | ⟨-, rfl⟩ | ⟨-, rfl⟩ | ⟨-, rfl⟩
  all_goals decide

theorem readLiteral_reads (split : text = front ++ '"' :: back) :
    ReadsValue (fun n => do
      let _ ← bump text
      return .str (← readString text [] n)) front ('"' :: back) k := by
  have split' : text = (front ++ ['"']) ++ back := by simp [split]
  refine .after (bump_behind split) (.bind (readString_parses [] split') ?_ ?_)
  · rintro value _ ⟨used, rest, closes, rfl⟩
    refine .pure ⟨'"' :: used, rest, congrArg ('"' :: ·) closes.split,
      ⟨List.cons_ne_nil _ _, stands_str value, fun single o ready => ?_⟩, by simp⟩
    rw [List.cons_append, ← closes.split, State.outcome_openString ready.between ready.room,
      closes.same single _ rfl, show '"' :: used = ['"'] ++ used from rfl, ← State.passed_passed]
    rfl
  · intro f failed single o ready
    rw [State.outcome_openString ready.between ready.room, failed single _ rfl]

theorem isPrefixOf_pair (a b : Char) (r : List Char) :
    [a, b].isPrefixOf (a :: r) = decide (r.head? = some b) := by
  cases r with
  | nil => simp [List.isPrefixOf]
  | cons c r =>
    simp only [List.isPrefixOf, beq_self_eq_true, Bool.true_and, Bool.and_true, List.head?_cons,
      Option.some.injEq, eq_comm]
    rfl

theorem readComma_reads (values : ValuesRead text n) (split : text = front ++ ',' :: back)
    (shorter : back.length < n) :
    ReadsValue (fun n => do
      if ← startsWith text [',', '@'] then readPrefixed text 2 "unquote-splicing" n
      else readPrefixed text 1 "unquote" n) front (',' :: back) k := by
  refine .after (startsWith_behind split _) ?_
  rw [isPrefixOf_pair]
  by_cases splicing : back.head? = some '@'
  · obtain ⟨r, rfl⟩ := List.head?_eq_some_iff.mp splicing
    have shorter' : r.length < n := Nat.lt_of_succ_lt shorter
    simp only [splicing, decide_true, if_true]
    exact readPrefix_reads [',', '@'] values (by decide) rfl split shorter'
  · simp only [splicing, decide_false, Bool.false_eq_true, if_false]
    refine readPrefixed_reads [','] values (by decide) rfl split shorter fun single o ready =>
      State.outcome_comma ready.between ready.room ?_
    rintro c first rfl
    exact splicing first

theorem readHash_reads (values : ValuesRead text n) (constructs : ItemsRead text n)
    (split : text = front ++ '#' :: back) (shorter : back.length < n)
    (bar : back.head? ≠ some '|') :
    ReadsValue (fun n => do
      if ← startsWith text ['#', '\''] then readPrefixed text 2 "function" n
      else readDispatch text n) front ('#' :: back) k := by
  refine .after (startsWith_behind split _) ?_
  rw [isPrefixOf_pair]
  by_cases quote : back.head? = some '\''
  · obtain ⟨r, rfl⟩ := List.head?_eq_some_iff.mp quote
    have shorter' : r.length < n := Nat.lt_of_succ_lt shorter
    simp only [quote, decide_true, if_true]
    exact readPrefix_reads ['#', '\''] values (by decide) rfl split shorter'
  · simp only [quote, decide_false, Bool.false_eq_true, if_false]
    exact readDispatch_reads constructs split shorter bar quote

theorem readValue_step (values : ValuesRead text n) (constructs : ItemsRead text n) :
    ValuesRead text (n + 1) := by
  intro front c r k split shorter solid close
  have shorter' : r.length < n := Nat.lt_of_succ_lt_succ shorter
  obtain ⟨blank, semicolon, block⟩ := solid c rfl
  refine Parses.succ ?_
  simp only [readValue.eq_def]
  split
  · exact readOpen_reads constructs split shorter'
  · exact absurd rfl close
  · exact readLiteral_reads split
  · exact readPrefix_reads ['\''] values (by decide) rfl split shorter'
  · exact readPrefix_reads ['`'] values (by decide) rfl split shorter'
  · exact readComma_reads values split shorter'
  · refine readHash_reads values constructs split shorter' fun bar => ?_
    obtain ⟨r, rfl⟩ := List.head?_eq_some_iff.mp bar
    exact block ⟨r, rfl⟩
  · next open' _ quote tick backtick comma hash =>
    have plain : Datum.isDelimiter c = false := by
      simp only [Datum.isDelimiter, blank, semicolon, close, Bool.or_eq_false_iff,
        decide_eq_false_iff_not, not_false_eq_true, and_true, true_and]
      exact ⟨⟨open', quote⟩, tick⟩
    exact readToken_reads split plain ⟨hash, backtick, comma⟩

theorem reads (text : List Char) (n : Nat) : ValuesRead text n ∧ ItemsRead text n := by
  induction n with
  | zero =>
    refine ⟨?_, ?_⟩
    · intro _ _ _ _ _ shorter
      cases shorter
    · intro _ _ _ _ _ shorter
      cases shorter
  | succ n ih =>
    obtain ⟨values, constructs⟩ := ih
    have values' := readValue_step values constructs
    exact ⟨values', readItems_step values' constructs⟩

end LispBridge.Descent
