import LispBridge.Proofs.Datum.Outcomes
import LispBridge.Proofs.Descent.Cursor
import LispBridge.Proofs.Text.Search

/-!
Loops over characters: each of them ends, and takes what the reader takes.

* `Solid`: text that starts neither with white space nor with a comment.
* `skipAtmosphere_behind`: the cursor comes to such text, or to the end.
* `readString_parses`: a literal is read up to its closing quote, if it has one.
-/

namespace LispBridge.Descent

open Reader

variable {text front back cs : List Char} {k : Nat}

/-! ### Comments -/

/-- What is passed of a line: up to its end, if it has one. -/
theorem skipLine_behind (split : text = front ++ back) :
    ∃ line rest, back = line ++ rest ∧
      Ends (skipLine text) (behind front k) (.ok ((), behind (front ++ line) k)) ∧
      ('\n' ∉ line ∧ rest = [] ∨ ∃ body, line = body ++ ['\n'] ∧ '\n' ∉ body) := by
  induction back generalizing front with
  | nil =>
    refine ⟨[], [], rfl, .succ ?_, .inl ⟨List.not_mem_nil, rfl⟩⟩
    rw [List.append_nil]
    exact .after (bump_end split rfl) (.of_eq rfl)
  | cons c back ih =>
    by_cases newline : c = '\n'
    · subst newline
      exact ⟨['\n'], back, rfl, .succ (.after (bump_behind split) (.of_eq rfl)),
        .inr ⟨[], rfl, List.not_mem_nil⟩⟩
    · have split' : text = (front ++ [c]) ++ back := by simp [split]
      obtain ⟨line, rest, rfl, ran, ends⟩ := ih split'
      rw [List.append_assoc] at ran
      refine ⟨c :: line, rest, rfl, .succ (.after (bump_behind split) ?_), ?_⟩
      · simp only [newline, if_false]
        exact ran
      · rcases ends with ⟨none, rfl⟩ | ⟨body, rfl, none⟩
        · exact .inl ⟨by simp [none, Ne.symm newline], rfl⟩
        · exact .inr ⟨c :: body, rfl, by simp [none, Ne.symm newline]⟩

/-- What is passed of a block comment: up to its end mark, if it has one. -/
theorem skipBlock_behind (split : text = front ++ '#' :: '|' :: back) :
    ∃ body rest, skipBlock text (behind front k) =
        some (.ok ((), behind (front ++ ('#' :: '|' :: body)) k)) ∧
      back = body ++ rest ∧
      (¬ ['|', '#'] <:+: body ∧ rest = [] ∨
        ∃ inner, body = inner ++ ['|', '#'] ∧ ¬ ['|', '#'] <:+: inner) := by
  have split' : text = (front ++ ['#', '|']) ++ back := by simp [split]
  rw [skipBlock, bind_of_ok (advance_behind (show Utf8.byteLength ['#', '|'] = 2 from rfl)),
    bind_of_ok (rest_behind split')]
  cases found : Text.firstIndex? ['|', '#'] back with
  | none =>
    refine ⟨back, [], ?_, (List.append_nil _).symm,
      .inl ⟨Text.not_infix_of_firstIndex? found, rfl⟩⟩
    rw [← split]
    rfl
  | some i =>
    obtain ⟨rest, taken, unmarked⟩ := Text.exists_of_firstIndex? (by simp) found
    refine ⟨back.take i ++ ['|', '#'], rest, ?_, taken, .inr ⟨_, rfl, unmarked⟩⟩
    have length : Utf8.byteLength (back.take i ++ ['|', '#']) =
        Utf8.byteLength (back.take i) + 2 := by
      rw [Utf8.byteLength_append]
      rfl
    rw [show front ++ ('#' :: '|' :: (back.take i ++ ['|', '#'])) =
      front ++ ['#', '|'] ++ (back.take i ++ ['|', '#']) by simp]
    exact advance_behind length

/-! ### Atmosphere -/

/-- Text that starts neither with white space nor with a comment. -/
def Solid (cs : List Char) : Prop :=
  ∀ c ∈ cs.head?, Text.isBlank c = false ∧ c ≠ ';' ∧ ¬ ['#', '|'] <+: cs

/-- `gap` is what is skipped of a text, solid text is left, and the reader has nothing to show for
the gap. -/
structure Skips (back gap rest : List Char) : Prop where
  split : back = gap ++ rest
  solid : Solid rest
  same : ∀ (single : Bool) (o : State), o.mode = .between →
    o.outcome single back = (o.passed gap).outcome single rest

theorem Skips.refl (solid : Solid back) : Skips back [] back where
  split := rfl
  solid := solid
  same single o _ := by simp [State.passed]

theorem Skips.length_le {gap rest : List Char} (skips : Skips back gap rest) :
    rest.length ≤ back.length := by
  rw [skips.split, List.length_append]
  exact Nat.le_add_left _ _

/-- Behind a part that the reader passes, skipping goes on. -/
theorem Skips.append {part gap rest : List Char} (skips : Skips cs gap rest)
    (same : ∀ (single : Bool) (o : State), o.mode = .between →
      o.outcome single (part ++ cs) = (o.passed part).outcome single cs) :
    Skips (part ++ cs) (part ++ gap) rest where
  split := by rw [skips.split, List.append_assoc]
  solid := skips.solid
  same single o between := by
    rw [same single o between, skips.same single (o.passed part) between, State.passed_passed]

theorem skipAtmosphere_of_solid (split : text = front ++ back) (solid : Solid back) :
    Ends (skipAtmosphere text) (behind front k) (.ok ((), behind front k)) := by
  refine .succ (.after (peek_behind split) ?_)
  cases back with
  | nil => exact .of_eq rfl
  | cons c r =>
    obtain ⟨blank, line, block⟩ := solid c rfl
    simp only [List.head?_cons, blank, line, Bool.false_eq_true, if_false]
    by_cases hash : c = '#'
    · have unmarked : ['#', '|'].isPrefixOf (c :: r) = false :=
        Bool.eq_false_iff.mpr fun marked => block (List.isPrefixOf_iff_prefix.mp marked)
      simp only [hash, if_true] at unmarked ⊢
      refine .after (startsWith_behind (hash ▸ split) _) ?_
      simp only [unmarked, Bool.false_eq_true, if_false]
      exact .of_eq rfl
    · simp only [hash, if_false]
      exact .of_eq rfl

/-- The part of a text that starts with `;`, up to the end of its line. -/
theorem lineComment_passed {line rest : List Char} (split : ';' :: cs = line ++ rest)
    (ends : '\n' ∉ line ∧ rest = [] ∨ ∃ body, line = body ++ ['\n'] ∧ '\n' ∉ body) :
    line ≠ [] ∧ ∀ (single : Bool) (o : State), o.mode = .between →
      o.outcome single (line ++ rest) = (o.passed line).outcome single rest := by
  rcases ends with ⟨none, rfl⟩ | ⟨body, rfl, none⟩
  · rw [List.append_nil] at split
    subst split
    refine ⟨List.cons_ne_nil _ _, fun single o between => ?_⟩
    rw [List.append_nil]
    exact State.outcome_lineComment (fun mem => none (List.mem_cons_of_mem _ mem)) between
  · refine ⟨by simp, fun single o between => ?_⟩
    cases body with
    | nil => cases (List.cons.inj split).1
    | cons c body =>
      obtain rfl := (List.cons.inj split).1
      have gap : IsGap (';' :: (body ++ '\n' :: [])) :=
        .lineComment (fun mem => none (List.mem_cons_of_mem _ mem)) .nil
      exact State.outcome_of_gap gap between rest

/-- The part of a text behind `#|`, up to the end mark. -/
theorem blockComment_passed {body rest : List Char}
    (ends : ¬ ['|', '#'] <:+: body ∧ rest = [] ∨
      ∃ inner, body = inner ++ ['|', '#'] ∧ ¬ ['|', '#'] <:+: inner)
    (single : Bool) (o : State) (between : o.mode = .between) :
    o.outcome single ('#' :: '|' :: body ++ rest) =
      (o.passed ('#' :: '|' :: body)).outcome single rest := by
  rcases ends with ⟨unmarked, rfl⟩ | ⟨inner, rfl, unmarked⟩
  · rw [List.append_nil]
    exact State.outcome_blockComment unmarked between
  · exact State.outcome_of_gap (.blockComment unmarked .nil) between rest

/-- One turn of the loop: the text is solid, or a blank or a comment is passed. -/
theorem skipAtmosphere_step (split : text = front ++ back) :
    Solid back ∨ ∃ part cs, back = part ++ cs ∧ part ≠ [] ∧
      (∀ (single : Bool) (o : State), o.mode = .between →
        o.outcome single (part ++ cs) = (o.passed part).outcome single cs) ∧
      ∀ r, Ends (skipAtmosphere text) (behind (front ++ part) k) r →
        Ends (skipAtmosphere text) (behind front k) r := by
  rcases back with - | ⟨c, r⟩
  · exact .inl fun c first => by cases first
  by_cases blank : Text.isBlank c = true
  · refine .inr ⟨[c], r, rfl, List.cons_ne_nil _ _, fun single o between =>
      State.outcome_of_gap (.blank blank .nil) between r, fun _ later => ?_⟩
    refine .succ (.after (peek_behind split) ?_)
    simp only [List.head?_cons, blank, if_true]
    exact .after (bump_behind split) later
  by_cases semicolon : c = ';'
  · subst semicolon
    obtain ⟨line, rest, cut, ran, ends⟩ := skipLine_behind (k := k) split
    obtain ⟨nonempty, same⟩ := lineComment_passed cut ends
    refine .inr ⟨line, rest, cut, nonempty, same, fun _ later => ?_⟩
    refine .succ (.after (peek_behind split) ?_)
    simp only [List.head?_cons, blank, Bool.false_eq_true, if_false, if_true]
    exact .bind ran later
  by_cases block : ['#', '|'] <+: c :: r
  · obtain ⟨cs, text'⟩ := block
    obtain ⟨rfl, rfl⟩ : '#' = c ∧ '|' :: cs = r := List.cons.inj text'
    obtain ⟨body, rest, ran, rfl, ends⟩ := skipBlock_behind (k := k) split
    refine .inr ⟨'#' :: '|' :: body, rest, rfl, List.cons_ne_nil _ _, blockComment_passed ends,
      fun _ later => ?_⟩
    have marked : ['#', '|'].isPrefixOf ('#' :: '|' :: (body ++ rest)) = true := rfl
    refine .succ (.after (peek_behind split) ?_)
    simp only [List.head?_cons, blank, semicolon, Bool.false_eq_true, if_false, if_true]
    refine .after (startsWith_behind split _) ?_
    simp only [marked, if_true]
    exact .after ran later
  · refine .inl fun d first => ?_
    obtain rfl := Option.some.inj first
    exact ⟨Bool.eq_false_iff.mpr blank, semicolon, block⟩

/-- **White space and comments are skipped up to solid text**, or up to the end. -/
theorem skipAtmosphere_behind (split : text = front ++ back) :
    ∃ gap rest, Skips back gap rest ∧
      Ends (skipAtmosphere text) (behind front k) (.ok ((), behind (front ++ gap) k)) := by
  induction length : back.length using Nat.strongRecOn generalizing front back with
  | ind n ih =>
    rcases skipAtmosphere_step (k := k) split with solid | ⟨part, cs, rfl, nonempty, same, passed⟩
    · refine ⟨[], back, .refl solid, ?_⟩
      rw [List.append_nil]
      exact skipAtmosphere_of_solid split solid
    · have shorter : cs.length < n := by
        have positive := List.length_pos_iff.mpr nonempty
        rw [← length, List.length_append]
        omega
      have split' : text = (front ++ part) ++ cs := by rw [split, List.append_assoc]
      obtain ⟨gap, rest, skips, ran⟩ := ih _ shorter split' rfl
      rw [List.append_assoc] at ran
      exact ⟨part ++ gap, rest, skips.append same, passed _ ran⟩

/-! ### Strings -/

/-- `used` is what is left of a literal with its closing quote, and `value` its content. -/
structure Closes (content back used rest : List Char) (value : String) : Prop where
  split : back = used ++ rest
  nonempty : used ≠ []
  same : ∀ (single : Bool) (o : State), o.mode = .string content false →
    o.outcome single back = ((o.passed used).accept (.str value)).outcome single rest

/-- Behind a character of the content, reading goes on. -/
theorem Closes.append {content content' part used rest : List Char} {value : String}
    (closes : Closes content' cs used rest value)
    (same : ∀ (single : Bool) (o : State), o.mode = .string content false →
      o.outcome single (part ++ cs) =
        ({ o.passed part with mode := .string content' false } : State).outcome single cs) :
    Closes content (part ++ cs) (part ++ used) rest value where
  split := by rw [closes.split, List.append_assoc]
  nonempty := List.append_ne_nil_of_right_ne_nil part closes.nonempty
  same single o inside := by
    rw [same single o inside, closes.same single _ rfl, ← State.passed_passed]
    rfl

theorem outcome_unterminated {single : Bool} {o : State} {content : List Char} {escaped : Bool}
    (inside : o.mode = .string content escaped) :
    o.outcome single [] = .error .unterminatedString := by
  rw [State.outcome_nil, State.finish, State.flush, inside]
  rfl

/-- That a parser takes what is left behind `front` of a literal that has had the content `content`,
or fails as the reader does. -/
def ReadsString (p : Nat → Parser String) (c : Cursor) (content front back : List Char) (k : Nat) :
    Prop :=
  Parses p c
    (fun value c' => ∃ used rest, Closes content back used rest value ∧
      c' = behind (front ++ used) k)
    (fun f => ∀ (single : Bool) (o : State), o.mode = .string content false →
      o.outcome single back = .error f)

/-- Behind a character of the content, or two that spell one, reading goes on. -/
theorem ReadsString.append {p : Nat → Parser String} {c : Cursor}
    {content content' part : List Char}
    (reads : ReadsString p c content' (front ++ part) cs k)
    (same : ∀ (single : Bool) (o : State), o.mode = .string content false →
      o.outcome single (part ++ cs) =
        ({ o.passed part with mode := .string content' false } : State).outcome single cs) :
    ReadsString p c content front (part ++ cs) k := by
  refine Parses.mono reads ?_ fun f failed single o inside => ?_
  · rintro value _ ⟨used, rest, closes, rfl⟩
    exact ⟨part ++ used, rest, closes.append same, by rw [List.append_assoc]⟩
  · rw [same single o inside, failed single _ rfl]

theorem outcome_loneBackslash {single : Bool} {o : State} {content : List Char}
    (inside : o.mode = .string content false) :
    o.outcome single ['\\'] = .error .unterminatedString := by
  have escaped : o.step single '\\' = .ok (o.read '\\' (.string content true)) := by
    simp only [State.step, inside]
    rfl
  rw [State.outcome_cons_of_ok escaped]
  exact outcome_unterminated rfl

/-- **A literal is read up to its closing quote.** Without one it is not terminated. -/
theorem readString_parses (content : List Char) (split : text = front ++ back) :
    ReadsString (readString text content) (behind front k) content front back k := by
  induction length : back.length using Nat.strongRecOn generalizing front back content with
  | ind n ih =>
    refine Parses.succ ?_
    rcases back with - | ⟨c, r⟩
    · exact .after (bump_end split rfl) (.stop fun single o => outcome_unterminated)
    have split' : text = (front ++ [c]) ++ r := by simp [split]
    refine .after (bump_behind split) ?_
    by_cases quote : c = '"'
    · subst quote
      exact .pure ⟨['"'], r, ⟨rfl, List.cons_ne_nil _ _, fun single o inside =>
        State.outcome_string inside r⟩, rfl⟩
    by_cases backslash : c = '\\'
    · subst backslash
      rcases r with - | ⟨d, r⟩
      · exact .after (bump_end split' rfl) (.stop fun single o => outcome_loneBackslash)
      · have split'' : text = (front ++ ['\\', d]) ++ r := by simp [split]
        have shorter : r.length < n := by
          rw [← length, List.length_cons, List.length_cons]
          omega
        have later := ih r.length shorter (Reader.unescape d :: content) split'' rfl
        refine .after (bump_behind split') ?_
        rw [List.append_assoc]
        exact later.append fun single o inside => State.outcome_escape inside r
    · split
      · next none => cases none
      · next isQuote => exact absurd (Option.some.inj isQuote) quote
      · next isBackslash => exact absurd (Option.some.inj isBackslash) backslash
      · next d _ _ same =>
        obtain rfl := Option.some.inj same
        have shorter : r.length < n := length ▸ Nat.lt_succ_self _
        have later := ih r.length shorter (c :: content) split' rfl
        exact later.append fun single o inside => State.outcome_content inside quote backslash r

end LispBridge.Descent
