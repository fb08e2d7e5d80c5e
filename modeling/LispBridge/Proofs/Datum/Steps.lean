import LispBridge.Proofs.Datum.Settling

/-!
What one character does to the reader.

* `Mode.IsShaped`: what the content of a token looks like while it is being read.
* `Steps`, `Begins`: everything that reading a character can come to.
* `State.Tallied`: the characters read are counted, and a token that starts with `#` is the last of
  them.
* `length_enclosing_step`: no more than `maxDepth` constructs are ever open.
-/

namespace LispBridge.Reader

/-! ### Shapes of tokens -/

/-- The text of a token: it holds nothing that ends one, and begins like one. -/
structure IsToken (cs : List Char) : Prop where
  nonempty : cs ≠ []
  plain : ∀ c ∈ cs, Datum.isDelimiter c = false
  begins : ∀ c ∈ cs.head?, c ≠ '#' ∧ c ≠ '`' ∧ c ≠ ','

theorem isToken_iff {cs : List Char} :
    IsToken cs ↔ cs ≠ [] ∧ cs.all (fun c => !Datum.isDelimiter c) = true ∧
      cs.head?.all (fun c => decide (c ≠ '#' ∧ c ≠ '`' ∧ c ≠ ',')) = true := by
  constructor
  · intro token
    refine ⟨token.nonempty, ?_, ?_⟩
    · simpa using token.plain
    · have begins := token.begins
      generalize cs.head? = first at begins ⊢
      cases first with
      | none => rfl
      | some c => exact decide_eq_true (begins c rfl)
  · rintro ⟨nonempty, plain, begins⟩
    refine ⟨nonempty, ?_, ?_⟩
    · simpa using plain
    · intro c first
      rw [Option.mem_def.mp first] at begins
      exact of_decide_eq_true begins

instance (cs : List Char) : Decidable (IsToken cs) :=
  decidable_of_iff _ isToken_iff.symm

/-- The text of a token that begins with `#`, and is no other construct that does. -/
structure IsHashToken (cs : List Char) : Prop where
  plain : ∀ c ∈ cs, Datum.isDelimiter c = false
  begins : ∃ r, cs = '#' :: r ∧ ∀ c ∈ r.head?, c ≠ '|' ∧ c ≠ '\\'

/-- The text of a character: `#\`, the character, and the rest of its name. -/
structure IsName (cs : List Char) : Prop where
  begins : ∃ c r, cs = '#' :: '\\' :: c :: r ∧ ∀ c ∈ r, Datum.isDelimiter c = false

/-- Whether what has been read of a token may begin one. -/
def Mode.IsShaped : Mode → Prop
  | .token content => IsToken content.reverse
  | .hashToken content => IsHashToken content.reverse ∧ content ≠ ['#']
  | .name content => IsName content.reverse
  | _ => True

/-- What has been read of a token that starts with `#`, last character first. -/
def Mode.hashText : Mode → List Char
  | .hash => ['#']
  | .hashToken content => content
  | _ => []

theorem IsToken.snoc {cs : List Char} {c : Char} (token : IsToken cs)
    (plain : Datum.isDelimiter c = false) : IsToken (cs ++ [c]) where
  nonempty := by simp
  plain := List.forall_mem_append.mpr ⟨token.plain, List.forall_mem_singleton.mpr plain⟩
  begins := by
    obtain ⟨d, r, rfl⟩ := List.exists_cons_of_ne_nil token.nonempty
    exact token.begins

theorem IsHashToken.snoc {cs : List Char} {c : Char} (token : IsHashToken cs)
    (plain : Datum.isDelimiter c = false) (second : cs = ['#'] → c ≠ '|' ∧ c ≠ '\\') :
    IsHashToken (cs ++ [c]) where
  plain := List.forall_mem_append.mpr ⟨token.plain, List.forall_mem_singleton.mpr plain⟩
  begins := by
    obtain ⟨r, rfl, begins⟩ := token.begins
    refine ⟨r ++ [c], rfl, ?_⟩
    cases r with
    | nil =>
      intro d mem
      obtain rfl := Option.mem_some.mp mem
      exact second rfl
    | cons d r => exact begins

theorem isHashToken_hash : IsHashToken ['#'] where
  plain := List.forall_mem_singleton.mpr rfl
  begins := ⟨[], rfl, by simp⟩

theorem IsName.snoc {cs : List Char} {c : Char} (name : IsName cs)
    (plain : Datum.isDelimiter c = false) : IsName (cs ++ [c]) where
  begins := by
    obtain ⟨d, r, rfl, others⟩ := name.begins
    exact ⟨d, r ++ [c], rfl,
      List.forall_mem_append.mpr ⟨others, List.forall_mem_singleton.mpr plain⟩⟩

/-! ### Steps -/

/-- The heads of the forms that prefixes stand for. -/
def prefixHeads : List String :=
  ["quote", "quasiquote", "unquote", "unquote-splicing", "function"]

/-- What a character that continues nothing comes to. -/
inductive Begins (s : State) (c : Char) : State → Prop
  /-- It changes nothing, or begins a comment or something that opens nothing. -/
  | read {mode : Mode} (shaped : mode.IsShaped) (text : mode.hashText <+: [c]) :
      Begins s c (s.read c mode)
  | list {t : State} (entered : (s.read c .between).enter (.list []) = .ok t) : Begins s c t
  | quote {t : State} {head : String} (known : head ∈ prefixHeads)
      (entered : (s.read c .between).enter (.prefixed head) = .ok t) : Begins s c t
  | closeList {items : List Datum} {outer : List Open} (paren : c = ')')
      (inside : s.enclosing = .list items :: outer) :
      Begins s c (({ s.read c .between with enclosing := outer } : State).accept
        (.ofItems items.reverse))
  | closeVector {start : Nat} {outer : List Open} (paren : c = ')')
      (inside : s.enclosing = .vector start :: outer) :
      Begins s c (({ s.read c .between with enclosing := outer } : State).accept
        (({ s.read c .between with enclosing := outer } : State).textFrom start))

/-- What reading a character comes to. -/
inductive Steps (single : Bool) (s : State) (c : Char) : State → Prop
  /-- It belongs to a comment, a literal or a token. -/
  | read {mode : Mode} (shaped : s.mode.IsShaped → mode.IsShaped)
      (text : mode.hashText <+: c :: s.mode.hashText) : Steps single s c (s.read c mode)
  /-- It ends a literal. -/
  | literal (content : String) :
      Steps single s c ((s.read c .between).accept (.str content))
  /-- It ends the value in front of it, if there is one, and begins something. -/
  | begin {t u : State} (settled : s.settle? single = some t) (began : Begins t c u) :
      Steps single s c u
  | quote {t : State} {head : String} (known : head ∈ prefixHeads)
      (entered : (s.read c .between).enter (.prefixed head) = .ok t) : Steps single s c t
  /-- It shows that the comma in front of it is a prefix, and begins something. -/
  | unquote {t u : State} (entered : s.enter (.prefixed "unquote") = .ok t)
      (began : Begins t c u) : Steps single s c u
  /-- It makes the token in front of it the prefix of a vector. -/
  | vector {t : State} (paren : c = '(')
      (shaped : s.mode.IsShaped → IsHashToken s.mode.hashText.reverse)
      (entered : (s.read c .between).enter (.vector (s.count - s.mode.hashText.length)) = .ok t) :
      Steps single s c t

section Inversion

variable {single : Bool} {s t : State} {c : Char}

theorem begins_of_close (paren : c = ')') (closed : s.close c = .ok t) : Begins s c t := by
  unfold State.close at closed
  split at closed
  · next inside =>
    obtain rfl := Except.ok.inj closed
    exact .closeList paren inside
  · next inside =>
    obtain rfl := Except.ok.inj closed
    exact .closeVector paren inside
  · cases closed

theorem not_isBlank_of_plain (plain : Datum.isDelimiter c = false) : Text.isBlank c = false := by
  simp only [Datum.isDelimiter, Bool.or_eq_false_iff] at plain
  exact plain.1.1.1.1.1

theorem begins_of_begin (began : s.begin single c = .ok t) : Begins s c t := by
  have passes {mode : Mode}
      (same : Except.ok (s.read c mode) = (Except.ok t : Except ReadFault State))
      (shaped : mode.IsShaped) (text : mode.hashText <+: [c]) : Begins s c t := by
    rw [← Except.ok.inj same]
    exact .read shaped text
  unfold State.begin at began
  split at began
  · exact passes began trivial List.nil_prefix
  rename_i ordinary
  split at began
  · exact passes began trivial List.nil_prefix
  rename_i comment
  split at began
  · next hash =>
    subst hash
    exact passes began trivial (List.prefix_refl _)
  rename_i hash
  split at began
  · cases began
  split at began
  · exact .list began
  · exact begins_of_close rfl began
  · exact passes began trivial List.nil_prefix
  · exact .quote (by decide) began
  · exact .quote (by decide) began
  · exact passes began trivial List.nil_prefix
  · next open' close quote apostrophe backquote comma =>
    refine passes began ⟨List.cons_ne_nil _ _, ?_, ?_⟩ List.nil_prefix
    · intro d mem
      obtain rfl := List.mem_singleton.mp mem
      simp only [Datum.isDelimiter, Bool.or_eq_false_iff, decide_eq_false_iff_not]
      exact ⟨⟨⟨⟨⟨by simpa using ordinary, open'⟩, close⟩, quote⟩, apostrophe⟩, comment⟩
    · intro d mem
      obtain rfl := Option.mem_some.mp mem
      exact ⟨hash, backquote, comma⟩

/-- A token goes on, or is complete in front of what the character begins. -/
theorem steps_of_continues {d : Datum} {mode : Mode}
    (settled : s.settle? single = some (s.accept d))
    (shaped : Datum.isDelimiter c = false → s.mode.IsShaped → mode.IsShaped)
    (text : mode.hashText <+: c :: s.mode.hashText)
    (stepped : (if Datum.isDelimiter c then (s.accept d).begin single c else .ok (s.read c mode)) =
      .ok t) :
    Steps single s c t := by
  split at stepped
  · exact .begin settled (begins_of_begin stepped)
  · next plain =>
    rw [← Except.ok.inj stepped]
    exact .read (shaped (Bool.eq_false_iff.mpr plain)) text

theorem steps_of_hashToken {content : List Char} (text : s.mode.hashText = content)
    (settled : s.settle? single = some (s.accept (.symbol (String.ofList content.reverse))))
    (shaped : s.mode.IsShaped →
      IsHashToken content.reverse ∧ (content = ['#'] → c ≠ '|' ∧ c ≠ '\\'))
    (stepped : s.hashToken single content c = .ok t) : Steps single s c t := by
  subst text
  unfold State.hashToken at stepped
  split at stepped
  · next paren => exact .vector paren (fun was => (shaped was).1) stepped
  · refine steps_of_continues settled (fun plain was => ?_) (List.prefix_refl _) stepped
    obtain ⟨token, second⟩ := shaped was
    constructor
    · rw [List.reverse_cons]
      refine token.snoc plain fun only => second ?_
      simpa using congrArg List.reverse only
    · intro only
      obtain ⟨r, begins, _⟩ := token.begins
      rw [(List.cons.inj only).2] at begins
      cases begins

theorem steps_of_step (stepped : s.step single c = .ok t) : Steps single s c t := by
  have skips {mode : Mode}
      (same : Except.ok (s.read c mode) = (Except.ok t : Except ReadFault State))
      (shaped : s.mode.IsShaped → mode.IsShaped) (text : mode.hashText <+: c :: s.mode.hashText) :
      Steps single s c t := by
    rw [← Except.ok.inj same]
    exact .read shaped text
  cases mode : s.mode with
  | between =>
    simp only [State.step, mode] at stepped
    exact .begin (State.settle?_of_between mode) (begins_of_begin stepped)
  | lineComment =>
    simp only [State.step, mode] at stepped
    split at stepped
    · exact skips stepped (fun _ => trivial) List.nil_prefix
    · exact skips stepped (fun _ => trivial) List.nil_prefix
  | blockComment bar =>
    simp only [State.step, mode] at stepped
    split at stepped
    · exact skips stepped (fun _ => trivial) List.nil_prefix
    · exact skips stepped (fun _ => trivial) List.nil_prefix
  | string content escaped =>
    cases escaped with
    | true =>
      simp only [State.step, mode] at stepped
      exact skips stepped (fun _ => trivial) List.nil_prefix
    | false =>
      simp only [State.step, mode] at stepped
      split at stepped
      · rw [← Except.ok.inj stepped]
        exact .literal _
      split at stepped
      · exact skips stepped (fun _ => trivial) List.nil_prefix
      · exact skips stepped (fun _ => trivial) List.nil_prefix
  | token content =>
    simp only [State.step, mode] at stepped
    have text : Mode.hashText (.token (c :: content)) <+: c :: s.mode.hashText := List.nil_prefix
    refine steps_of_continues (by rw [State.settle?, mode]) ?_ text stepped
    rw [mode]
    intro plain shaped
    rw [Mode.IsShaped, List.reverse_cons]
    exact IsToken.snoc shaped plain
  | hash =>
    simp only [State.step, mode] at stepped
    split at stepped
    · exact skips stepped (fun _ => trivial) List.nil_prefix
    rename_i bar
    split at stepped
    · cases stepped
    rename_i room
    split at stepped
    · exact .quote (by decide) stepped
    split at stepped
    · exact skips stepped (fun _ => trivial) List.nil_prefix
    rename_i backslash
    -- Neither a comment, a prefix nor a character: the `#` is the first of a token.
    have text : s.mode.hashText = ['#'] := by
      rw [mode]
      rfl
    refine steps_of_hashToken text ?_ (fun _ => ⟨isHashToken_hash, ?_⟩) stepped
    · rw [State.settle?, mode]
      simp only [room, Bool.false_eq_true, if_false]
      rfl
    · exact fun _ => ⟨bar, backslash⟩
  | hashToken content =>
    simp only [State.step, mode] at stepped
    refine steps_of_hashToken (by rw [mode]; rfl) (by rw [State.settle?, mode]) ?_ stepped
    rw [mode]
    rintro ⟨token, longer⟩
    exact ⟨token, fun only => absurd only longer⟩
  | character =>
    simp only [State.step, mode] at stepped
    refine skips stepped (fun _ => ⟨c, [], rfl, ?_⟩) List.nil_prefix
    intro d mem
    cases mem
  | name content =>
    simp only [State.step, mode] at stepped
    have text : Mode.hashText (.name (c :: content)) <+: c :: s.mode.hashText := List.nil_prefix
    refine steps_of_continues (by rw [State.settle?, mode]) ?_ text stepped
    rw [mode]
    intro plain shaped
    rw [Mode.IsShaped, List.reverse_cons]
    exact IsName.snoc shaped plain
  | comma =>
    simp only [State.step, mode] at stepped
    split at stepped
    · exact .quote (by decide) stepped
    · obtain ⟨u, entered, began⟩ := bind_eq_ok stepped
      exact .unquote entered (begins_of_begin began)

end Inversion

/-! ### What is counted -/

/-- Whether the characters read have been counted, and what has been read of a token that starts
with `#` is the last of them. -/
structure State.Tallied (s : State) : Prop where
  count_eq : s.count = s.seen.length
  text_prefix : s.mode.hashText <+: s.seen

section Invariants

variable {single : Bool} {s t : State} {c : Char} {cs : List Char}

theorem enter_eq_ok {op : Open} (entered : s.enter op = .ok t) :
    s.enclosing.length < maxDepth ∧
      t = { s with mode := .between, enclosing := op :: s.enclosing } := by
  unfold State.enter at entered
  split at entered
  · next few => exact ⟨few, (Except.ok.inj entered).symm⟩
  · cases entered

/-- Whatever a value completes, characters stay as they are. -/
theorem settle?_eq_some (settled : s.settle? single = some t) :
    (s.mode = .between ∧ t = s) ∨ ∃ d, t = s.accept d := by
  unfold State.settle? at settled
  split at settled
  · next between => exact .inl ⟨between, (Option.some.inj settled).symm⟩
  · exact .inr ⟨_, (Option.some.inj settled).symm⟩
  · split at settled
    · cases settled
    · exact .inr ⟨_, (Option.some.inj settled).symm⟩
  · exact .inr ⟨_, (Option.some.inj settled).symm⟩
  · exact .inr ⟨_, (Option.some.inj settled).symm⟩
  all_goals cases settled

theorem read_of_settle (settled : s.settle? single = some t) :
    t.seen = s.seen ∧ t.count = s.count ∧ t.mode = .between := by
  rcases settle?_eq_some settled with ⟨between, rfl⟩ | ⟨d, rfl⟩
  · exact ⟨rfl, rfl, between⟩
  · exact ⟨rfl, rfl, rfl⟩

theorem read_of_begins (began : Begins s c t) :
    t.seen = c :: s.seen ∧ t.count = s.count + 1 ∧ t.mode.hashText <+: [c] := by
  cases began with
  | read _ text => exact ⟨rfl, rfl, text⟩
  | list entered =>
    obtain ⟨_, rfl⟩ := enter_eq_ok entered
    exact ⟨rfl, rfl, List.nil_prefix⟩
  | quote _ entered =>
    obtain ⟨_, rfl⟩ := enter_eq_ok entered
    exact ⟨rfl, rfl, List.nil_prefix⟩
  | closeList => exact ⟨rfl, rfl, List.nil_prefix⟩
  | closeVector => exact ⟨rfl, rfl, List.nil_prefix⟩

/-- Every step reads its character, and adds it to what has been read of a token if it belongs to
one. -/
theorem read_of_step (stepped : s.step single c = .ok t) :
    t.seen = c :: s.seen ∧ t.count = s.count + 1 ∧ t.mode.hashText <+: c :: s.mode.hashText := by
  have ends {text : List Char} (only : text <+: [c]) : text <+: c :: s.mode.hashText :=
    only.trans (List.prefix_append [c] s.mode.hashText)
  cases steps_of_step stepped with
  | read _ text => exact ⟨rfl, rfl, text⟩
  | literal => exact ⟨rfl, rfl, List.nil_prefix⟩
  | begin settled began =>
    obtain ⟨seen, count, _⟩ := read_of_settle settled
    obtain ⟨seen', count', text⟩ := read_of_begins began
    exact ⟨by rw [seen', seen], by rw [count', count], ends text⟩
  | quote _ entered =>
    obtain ⟨_, rfl⟩ := enter_eq_ok entered
    exact ⟨rfl, rfl, List.nil_prefix⟩
  | unquote entered began =>
    obtain ⟨_, rfl⟩ := enter_eq_ok entered
    obtain ⟨seen, count, text⟩ := read_of_begins began
    exact ⟨seen, count, ends text⟩
  | vector _ _ entered =>
    obtain ⟨_, rfl⟩ := enter_eq_ok entered
    exact ⟨rfl, rfl, List.nil_prefix⟩

theorem State.Tallied.step (tallied : s.Tallied) (stepped : s.step single c = .ok t) :
    t.Tallied := by
  obtain ⟨seen, count, text⟩ := read_of_step stepped
  constructor
  · rw [seen, count, tallied.count_eq, List.length_cons]
  · rw [seen]
    exact text.trans (List.prefix_cons_inj c |>.mpr tallied.text_prefix)

/-! ### How much is open -/

theorem length_place_le (d : Datum) (forms : List Datum) (enclosing : List Open) :
    (place d forms enclosing).1.length ≤ enclosing.length := by
  induction enclosing generalizing d with
  | nil => exact Nat.le_refl 0
  | cons op enclosing ih =>
    cases op with
    | list items => exact Nat.le_refl _
    | prefixed head => exact Nat.le_succ_of_le (ih _)
    | vector start => exact Nat.le_refl _

theorem length_accept_le (s : State) (d : Datum) :
    (s.accept d).enclosing.length ≤ s.enclosing.length :=
  length_place_le d s.forms s.enclosing

theorem length_enclosing_settle (settled : s.settle? single = some t) :
    t.enclosing.length ≤ s.enclosing.length := by
  rcases settle?_eq_some settled with ⟨_, rfl⟩ | ⟨d, rfl⟩
  · exact Nat.le_refl _
  · exact length_accept_le s d

theorem length_enclosing_enter {op : Open} (entered : s.enter op = .ok t) :
    t.enclosing.length ≤ maxDepth := by
  obtain ⟨few, rfl⟩ := enter_eq_ok entered
  exact few

theorem length_enclosing_begins (few : s.enclosing.length ≤ maxDepth) (began : Begins s c t) :
    t.enclosing.length ≤ maxDepth := by
  cases began with
  | read => exact few
  | list entered => exact length_enclosing_enter entered
  | quote _ entered => exact length_enclosing_enter entered
  | closeList _ inside =>
    refine Nat.le_trans (length_accept_le _ _) ?_
    rw [inside] at few
    exact Nat.le_of_succ_le few
  | closeVector _ inside =>
    refine Nat.le_trans (length_accept_le _ _) ?_
    rw [inside] at few
    exact Nat.le_of_succ_le few

theorem length_enclosing_step (few : s.enclosing.length ≤ maxDepth)
    (stepped : s.step single c = .ok t) : t.enclosing.length ≤ maxDepth := by
  cases steps_of_step stepped with
  | read => exact few
  | literal => exact Nat.le_trans (length_accept_le _ _) few
  | begin settled began =>
    exact length_enclosing_begins (Nat.le_trans (length_enclosing_settle settled) few) began
  | quote _ entered => exact length_enclosing_enter entered
  | unquote entered began =>
    exact length_enclosing_begins (length_enclosing_enter entered) began
  | vector _ _ entered => exact length_enclosing_enter entered

theorem length_enclosing_run (few : s.enclosing.length ≤ maxDepth)
    (ran : s.run single cs = .ok t) : t.enclosing.length ≤ maxDepth := by
  induction cs generalizing s with
  | nil =>
    obtain rfl := Except.ok.inj ran
    exact few
  | cons c cs ih =>
    obtain ⟨u, stepped, ran⟩ := State.run_cons ran
    exact ih (length_enclosing_step few stepped) ran

/-! ### The end of the text -/

/-- What the end of the text comes to. -/
theorem flush_cases (flushed : s.flush single = .ok t) :
    t = s ∨ s.settle? single = some t ∨
      (s.mode = .character ∧ t = s.accept (.symbol "#\\")) ∨ t.enclosing ≠ [] := by
  unfold State.flush at flushed
  split at flushed
  · exact .inl (Except.ok.inj flushed).symm
  · exact .inl (Except.ok.inj flushed).symm
  · exact .inl (Except.ok.inj flushed).symm
  · cases flushed
  · next mode =>
    refine .inr (.inl ?_)
    rw [State.settle?, mode, ← Except.ok.inj flushed]
  · next mode =>
    split at flushed
    · cases flushed
    · next room =>
      refine .inr (.inl ?_)
      rw [State.settle?, mode, ← Except.ok.inj flushed]
      simp only [room, Bool.false_eq_true, if_false]
  · next mode =>
    refine .inr (.inl ?_)
    rw [State.settle?, mode, ← Except.ok.inj flushed]
  · next mode =>
    refine .inr (.inl ?_)
    rw [State.settle?, mode, ← Except.ok.inj flushed]
  · next mode => exact .inr (.inr (.inl ⟨mode, (Except.ok.inj flushed).symm⟩))
  · obtain ⟨_, rfl⟩ := enter_eq_ok flushed
    exact .inr (.inr (.inr (List.cons_ne_nil _ _)))

theorem finish_eq_ok {ds : List Datum} (finished : s.finish single = .ok ds) :
    ∃ t, s.flush single = .ok t ∧ t.enclosing = [] ∧ ds = t.forms.reverse := by
  obtain ⟨t, flushed, finished⟩ := bind_eq_ok finished
  split at finished
  · next closed => exact ⟨t, flushed, closed, (Except.ok.inj finished).symm⟩
  all_goals cases finished

theorem forms_eq_ok {ds : List Datum} (read : forms single cs = .ok ds) :
    ∃ s, State.run single {} cs = .ok s ∧ s.finish single = .ok ds :=
  bind_eq_ok read

theorem forms_of_read {text : String} {d : Datum} (accepted : Datum.read text = .ok d) :
    ∃ ds, forms true text.toList = .ok (d :: ds) := by
  obtain ⟨all, read, accepted⟩ := bind_eq_ok accepted
  cases all with
  | nil => cases accepted
  | cons x ds =>
    obtain rfl := Except.ok.inj accepted
    exact ⟨ds, read⟩

end Invariants

end LispBridge.Reader
