import LispBridge.Interpreter.Process
import Mathlib.Data.List.Infix

/-!
What a line of a process's output is to a request that reads it.

* `Replies`: the replies, as the values that spell them, and what each is to a request.
* `Means`: what a line is to a request.
* `means_iff`: every line is exactly one thing, which `OutputLine.role` computes.
-/

namespace LispBridge

/-! ### What a line means -/

/-- What a line is to a request that reads it. -/
inductive LineRole where
  /-- It belongs to the request and emits something. -/
  | passes (chunks : List Chunk)
  /-- It ends the request. -/
  | ends (outcome : Except Failure Datum)

/-- What the elements of a reply are to a request. -/
inductive Replies : List Datum → LineRole → Prop
  | ready {tag : Datum} (named : tag.isSymbol ":ready" = true) : Replies [tag] (.passes [])
  | printed {tag : Datum} (text : String) (named : tag.isSymbol ":repl-result" = true) :
      Replies [tag, .str text] (.passes [⟨text, true⟩])
  | value {tag : Datum} (value : Datum) (named : tag.isSymbol ":ok" = true) :
      Replies [tag, value] (.ends (.ok value))
  | abort {tag : Datum} (message : Datum) (named : tag.isSymbol ":abort" = true) :
      Replies [tag, message] (.ends (.error (.abort message.asStr?)))
  | raised {tag : Datum} (message stack fatal : Datum) (named : tag.isSymbol ":error" = true) :
      Replies [tag, message, stack, fatal] (.ends (.error (.interpreter
        ⟨ReplyLine.description message, ReplyLine.descriptions stack, fatal.isTruthy⟩)))

/-- What a line is to a request. With the delimiter in front, it is a reply, or it ends the request
as a fault of the process. -/
inductive Means (delimiter : String) : OutputLine → LineRole → Prop
  | output {line : String} (plain : ¬ delimiter.toList <+: line.toList) :
      Means delimiter (.ok line) (.passes [⟨line ++ "\n", false⟩])
  | reply {body : String} {items : List Datum} {role : LineRole}
      (reads : Datum.read body = .ok (.list items)) (replies : Replies items role) :
      Means delimiter (.ok (delimiter ++ body)) role
  | unrecognised {body : String} {d : Datum} (reads : Datum.read body = .ok d)
      (none : ∀ items role, d = .list items → ¬ Replies items role) :
      Means delimiter (.ok (delimiter ++ body))
        (.ends (.error (.process (ReplyFault.unrecognised d).message)))
  | unreadable {body : String} {fault : ReadFault} (reads : Datum.read body = .error fault) :
      Means delimiter (.ok (delimiter ++ body))
        (.ends (.error (.process (ReplyFault.unreadable body fault).message)))
  /-- A line that is no text cannot be read at all. -/
  | undecodable (fault : Utf8.Fault) :
      Means delimiter (.error fault)
        (.ends (.error (.process (ProcessFault.unreadable fault).message)))

/-- What a line that has been classified is to a request. -/
def ReplyLine.role : ReplyLine → LineRole
  | .output text => .passes [outputChunk text]
  | .ready => .passes []
  | .printed text => .passes [⟨text, true⟩]
  | .ok value => .ends (.ok value)
  | .abort message => .ends (.error (.abort message))
  | .raised condition => .ends (.error (.interpreter condition))

/-- What a line is to a request, computed. -/
def OutputLine.role (delimiter : String) : OutputLine → LineRole
  | .error fault => .ends (.error (ProcessFault.unreadable fault).failure)
  | .ok line =>
    match ReplyLine.classify delimiter line with
    | .error fault => .ends (.error (ProcessFault.badReply fault).failure)
    | .ok reply => reply.role

section Roles

variable {delimiter body : String} {d tag : Datum} {items : List Datum} {role : LineRole}
  {line : OutputLine}

/-- A symbol has one name, in any case. -/
theorem isSymbol_eq_false {a b : String} (named : tag.isSymbol a = true)
    (differ : Datum.sameName a b = false) : tag.isSymbol b = false := by
  cases tag with
  | symbol s =>
    simp only [Datum.isSymbol, Datum.sameName, decide_eq_true_eq, decide_eq_false_iff_not] at *
    exact fun same => differ (named.symm.trans same)
  | _ => rfl

theorem ofDatum_of_replies (replies : Replies items role) :
    (ReplyLine.ofDatum (.list items)).map ReplyLine.role = some role := by
  cases replies with
  | ready named => simp [ReplyLine.ofDatum, Datum.asList?, named, ReplyLine.role]
  | printed text named =>
    have value : Datum.isSymbol _ ":ok" = false := isSymbol_eq_false named (by decide)
    simp [ReplyLine.ofDatum, Datum.asList?, Datum.asStr?, named, value, ReplyLine.role]
  | value value named => simp [ReplyLine.ofDatum, Datum.asList?, named, ReplyLine.role]
  | abort message named =>
    have value : Datum.isSymbol _ ":ok" = false := isSymbol_eq_false named (by decide)
    have printed : Datum.isSymbol _ ":repl-result" = false := isSymbol_eq_false named (by decide)
    simp [ReplyLine.ofDatum, Datum.asList?, named, value, printed, ReplyLine.role]
  | raised message stack fatal named =>
    simp [ReplyLine.ofDatum, Datum.asList?, named, ReplyLine.role]

theorem eq_list_of_elements (elements : d.asList?.getD [] = tag :: items) :
    d = .list (tag :: items) := by
  cases d with
  | list own => exact congrArg Datum.list elements
  | nil => cases elements
  | _ => cases elements

theorem replies_of_ofDatum {reply : ReplyLine} (spells : ReplyLine.ofDatum d = some reply) :
    ∃ items, d = .list items ∧ Replies items reply.role := by
  rw [ReplyLine.ofDatum] at spells
  split at spells
  · next tag elements =>
    split at spells
    · next named =>
      cases spells
      exact ⟨_, eq_list_of_elements elements, .ready named⟩
    · cases spells
  · next tag x elements =>
    split at spells
    · next named =>
      cases spells
      exact ⟨_, eq_list_of_elements elements, .value x named⟩
    split at spells
    · next named =>
      obtain ⟨named, isStr⟩ := named
      cases x with
      | str text =>
        cases spells
        exact ⟨_, eq_list_of_elements elements, .printed text named⟩
      | _ => cases isStr
    split at spells
    · next named =>
      cases spells
      exact ⟨_, eq_list_of_elements elements, .abort x named⟩
    · cases spells
  · next tag message stack fatal elements =>
    split at spells
    · next named =>
      cases spells
      exact ⟨_, eq_list_of_elements elements, .raised message stack fatal named⟩
    · cases spells
  · cases spells

/-- A line with the delimiter in front means what the text behind it is read as. -/
theorem classify_of_error {fault : ReadFault} (reads : Datum.read body = .error fault) :
    ReplyLine.classify delimiter (delimiter ++ body) = .error (.unreadable body fault) := by
  rw [ReplyLine.classify, String.toList_append, List.isPrefixOf?_eq_some_iff_append_eq.mpr rfl]
  simp only [String.ofList_toList, reads]

theorem classify_of_ok (reads : Datum.read body = .ok d) :
    ReplyLine.classify delimiter (delimiter ++ body) =
      (ReplyLine.ofDatum d).elim (.error (.unrecognised d)) .ok := by
  rw [ReplyLine.classify, String.toList_append, List.isPrefixOf?_eq_some_iff_append_eq.mpr rfl]
  simp only [String.ofList_toList, reads]
  cases ReplyLine.ofDatum d <;> rfl

theorem classify_plain {line : String} (plain : ¬ delimiter.toList <+: line.toList) :
    ReplyLine.classify delimiter line = .ok (.output line) := by
  have none : delimiter.toList.isPrefixOf? line.toList = none :=
    Option.eq_none_iff_forall_ne_some.mpr fun rest found =>
      plain ⟨rest, List.append_eq_of_isPrefixOf?_eq_some found⟩
  rw [ReplyLine.classify, none]

theorem role_of_means (means : Means delimiter line role) : line.role delimiter = role := by
  cases means with
  | output plain => simp only [OutputLine.role, classify_plain plain, ReplyLine.role, outputChunk]
  | reply reads replies =>
    obtain ⟨reply, spelled, same⟩ := Option.map_eq_some_iff.mp (ofDatum_of_replies replies)
    simp only [OutputLine.role, classify_of_ok reads, spelled, Option.elim_some, same]
  | @unrecognised body d reads none =>
    have unspelled : ReplyLine.ofDatum d = Option.none := by
      refine Option.eq_none_iff_forall_ne_some.mpr fun reply spells => ?_
      obtain ⟨items, list, replies⟩ := replies_of_ofDatum spells
      exact none items _ list replies
    simp only [OutputLine.role, classify_of_ok reads, unspelled]
    rfl
  | unreadable reads =>
    simp only [OutputLine.role, classify_of_error reads]
    rfl
  | undecodable fault => rfl

theorem means_role (delimiter : String) (line : OutputLine) :
    Means delimiter line (line.role delimiter) := by
  rcases line with fault | line
  · exact .undecodable fault
  by_cases delimited : delimiter.toList <+: line.toList
  · obtain ⟨rest, split⟩ := delimited
    obtain ⟨body, rfl⟩ : ∃ body, line = delimiter ++ body := by
      refine ⟨String.ofList rest, String.toList_inj.mp ?_⟩
      rw [String.toList_append, String.toList_ofList, split]
    cases reads : Datum.read body with
    | error fault =>
      rw [OutputLine.role, classify_of_error reads]
      exact .unreadable reads
    | ok d =>
      rw [OutputLine.role, classify_of_ok reads]
      cases spelled : ReplyLine.ofDatum d with
      | some reply =>
        obtain ⟨items, rfl, replies⟩ := replies_of_ofDatum spelled
        exact .reply reads replies
      | none =>
        refine .unrecognised reads fun items role list replies => ?_
        have spells := ofDatum_of_replies replies
        rw [← list, spelled] at spells
        cases spells
  · rw [OutputLine.role, classify_plain delimited]
    exact .output delimited

/-- Every line means exactly one thing. -/
theorem means_iff : Means delimiter line role ↔ line.role delimiter = role :=
  ⟨role_of_means, fun same => same ▸ means_role delimiter line⟩

end Roles

end LispBridge
