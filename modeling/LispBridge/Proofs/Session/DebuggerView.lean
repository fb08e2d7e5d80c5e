import LispBridge.Proofs.Session.Accounts
import Mathlib.Logic.Function.Basic

/-!
The editor's view of the debugger.

An editor takes a level for active from its announcement to the next message that closes it. Levels
are announced where they are entered, but closed some time after they were left, so a level may be
entered again before the message that closes it is queued.

* `editorView`: the levels that the messages so far leave open, with their requests.
* `Reopened`: a level was last announced while an earlier announcement was not closed yet.
* `editorView_eq_levels_iff`: with no request running, the view is that of the session but for the
  reopened levels, and those are missing from it.
-/

namespace LispBridge

/-! ### Announcements and closings -/

/-- The request that a message announces a level for. -/
def Response.announced? (number : Nat) : Response → Option RequestId
  | .event (.debug n _ _ _ id) => if n = number then some id else none
  | _ => none

/-- Whether a message closes a level. -/
def Response.closes (number : Nat) : Response → Bool
  | .event (.debugReturn n) => n = number
  | _ => false

/-- How often a level was announced. -/
def announcements (number : Nat) (rs : List Response) : Nat :=
  rs.countP fun r => (r.announced? number).isSome

/-- How often a level was closed. -/
def closings (number : Nat) (rs : List Response) : Nat :=
  rs.countP (Response.closes number)

/-- What an editor knows of the active levels after one more message. -/
def seeLevel (view : Nat → Option RequestId) : Response → Nat → Option RequestId
  | .event (.debug n _ _ _ id) => Function.update view n (some id)
  | .event (.debugReturn n) => Function.update view n none
  | _ => view

/-- The active levels with their requests, as an editor sees them that starts with none. -/
def editorView (rs : List Response) : Nat → Option RequestId :=
  rs.foldl seeLevel fun _ => none

/-- The last announcement of a level: what was queued before it and after it, and its request. -/
structure LastAnnounced (number : Nat) (rs pre post : List Response) (id : RequestId) : Prop where
  split : ∃ r, rs = pre ++ r :: post ∧ r.announced? number = some id
  last : ∀ r ∈ post, r.announced? number = none

/-- A level was last announced while an earlier announcement of it was not closed yet. -/
def Reopened (number : Nat) (rs : List Response) : Prop :=
  ∃ pre post id, LastAnnounced number rs pre post id ∧
    closings number pre < announcements number pre

variable {number : Nat} {rs pre post : List Response} {id : RequestId}

theorem seeLevel_apply (view : Nat → Option RequestId) (r : Response) (number : Nat) :
    seeLevel view r number =
      if (r.announced? number).isSome then r.announced? number
      else if r.closes number then none else view number := by
  rcases r with (_ | _ | _ | _ | ⟨n, message, restarts, frames, id⟩ | _ | n) | _
  case event.debug =>
    by_cases same : n = number
    · subst same
      simp [seeLevel, Response.announced?]
    · simp [seeLevel, Response.announced?, Response.closes, same, Ne.symm same]
  case event.debugReturn =>
    by_cases same : n = number
    · subst same
      simp [seeLevel, Response.announced?, Response.closes]
    · simp [seeLevel, Response.announced?, Response.closes, same, Ne.symm same]
  all_goals rfl

/-- Without announcements a level stays as it is until it is closed. -/
theorem foldl_seeLevel (view : Nat → Option RequestId)
    (unannounced : ∀ r ∈ rs, r.announced? number = none) :
    rs.foldl seeLevel view number = if closings number rs = 0 then view number else none := by
  induction rs generalizing view with
  | nil => rfl
  | cons r rs ih =>
    rw [List.forall_mem_cons] at unannounced
    rw [List.foldl_cons, ih _ unannounced.2, seeLevel_apply, unannounced.1, closings, closings,
      List.countP_cons]
    cases closes : r.closes number <;> simp

/-- After its last announcement a level is open until it is closed. -/
theorem LastAnnounced.editorView (announced : LastAnnounced number rs pre post id) :
    editorView rs number = if closings number post = 0 then some id else none := by
  obtain ⟨⟨r, rfl, isSome⟩, last⟩ := announced
  rw [LispBridge.editorView, List.foldl_append, List.foldl_cons, foldl_seeLevel _ last,
    seeLevel_apply, isSome]
  rfl

theorem announcements_eq_zero (unannounced : ∀ r ∈ rs, r.announced? number = none) :
    announcements number rs = 0 :=
  List.countP_eq_zero.mpr fun r mem => by simp [unannounced r mem]

/-- The last announcement counts once, and it closes nothing. -/
theorem LastAnnounced.counts (announced : LastAnnounced number rs pre post id) :
    announcements number rs = announcements number pre + 1 ∧
      closings number rs = closings number pre + closings number post := by
  obtain ⟨⟨r, rfl, isSome⟩, last⟩ := announced
  have opens : r.closes number = false := by
    unfold Response.announced? at isSome
    split at isSome
    · rfl
    · simp at isSome
  have later := announcements_eq_zero last
  unfold announcements closings at *
  simp [List.countP_append, isSome, opens, later]

/-- More messages without an announcement of the level do not change which was the last. -/
theorem LastAnnounced.append (announced : LastAnnounced number rs pre post id)
    {more : List Response} (unannounced : ∀ r ∈ more, r.announced? number = none) :
    LastAnnounced number (rs ++ more) pre (post ++ more) id := by
  obtain ⟨⟨r, rfl, isSome⟩, last⟩ := announced
  refine ⟨⟨r, by simp, isSome⟩, ?_⟩
  rw [List.forall_mem_append]
  exact ⟨last, unannounced⟩

/-! ### Sessions -/

theorem count_paidBy_closing (number : Nat) (rs : List Response) :
    (paidBy rs).count (.closing number) = closings number rs := by
  induction rs with
  | nil => rfl
  | cons r rs ih =>
    rw [paidBy_cons, Multiset.count_add, ih, closings, closings, List.countP_cons, add_comm]
    congr 1
    rcases r with (_ | _ | _ | _ | _ | _ | n) | _ <;>
      simp [Response.closes, Multiset.count_singleton, eq_comm]

theorem count_promisedBy_closing (number : Nat) (rs : List Response) :
    (promisedBy rs).count (.closing number) = announcements number rs := by
  induction rs with
  | nil => rfl
  | cons r rs ih =>
    rw [promisedBy_cons, Multiset.count_add, ih, announcements, announcements, List.countP_cons,
      add_comm]
    congr 1
    rcases r with (_ | _ | _ | _ | ⟨n, message, restarts, frames, id⟩ | _ | _) | _
    case event.debug =>
      by_cases same : n = number
      · simp [Response.announced?, same]
      · simp [Response.announced?, same, Ne.symm same]
    all_goals simp [Response.announced?]

theorem count_incurredBy_closing (number : Nat) (H : List Entry) :
    (incurredBy H).count (.closing number) = 0 := by
  induction H with
  | nil => rfl
  | cons e H ih =>
    have split : incurredBy (e :: H) = e.incurred + incurredBy H := by simp [incurredBy]
    rw [split, Multiset.count_add, ih]
    cases e with
    | delivered payload => cases asked : requestId? payload <;> simp [Entry.incurred, asked]
    | _ => rfl

theorem count_owedFor_closing (number : Nat) (levels : List Level) (first : Nat) :
    (owedFor (Debugger.innermostFirst levels first)).count (.closing number) =
      if first ≤ number ∧ number < first + levels.length then 1 else 0 := by
  induction levels generalizing first with
  | nil =>
    simp [Debugger.innermostFirst]
  | cons l levels ih =>
    rw [Debugger.owedFor_innermostFirst_cons, Multiset.count_add, ih, List.length_cons]
    by_cases same : number = first
    · subst same
      simp
    · have split : first ≤ number ∧ number < first + (levels.length + 1) ↔
          first + 1 ≤ number ∧ number < first + 1 + levels.length := by omega
      simp [split, same]

theorem count_owes_closing (number : Nat) (d : Debugger) :
    d.owes.count (.closing number) = if (d.level? number).isSome then 1 else 0 := by
  rw [Debugger.owes, count_owedFor_closing]
  congr 1
  rw [Debugger.level?]
  by_cases outside : number = 0
  · simp [outside]
  · simp [outside]
    omega

/-- A level that was never announced is not active; of one that was, the last announcement names
the request of the active level, and all earlier closings closed something. -/
def Announced (d : Debugger) (rs : List Response) (number : Nat) : Prop :=
  (d.level? number = none ∧ ∀ r ∈ rs, r.announced? number = none) ∨
    ∃ pre post id, LastAnnounced number rs pre post id ∧
      closings number pre ≤ announcements number pre ∧
        ∀ l, d.level? number = some l → l.id = id

theorem Announced.tell {d d' : Debugger} {more : List Response} (announced : Announced d rs number)
    (unannounced : ∀ r ∈ more, r.announced? number = none)
    (fewer : ∀ l, d'.level? number = some l → d.level? number = some l) :
    Announced d' (rs ++ more) number := by
  obtain ⟨inactive, none⟩ | ⟨pre, post, id, last, ordered, named⟩ := announced
  · refine .inl ⟨?_, List.forall_mem_append.mpr ⟨none, unannounced⟩⟩
    cases active : d'.level? number with
    | none => rfl
    | some l => simp [inactive] at fewer; simp [fewer] at active
  · exact .inr ⟨pre, _, id, last.append unannounced, ordered,
      fun l active => named l (fewer l active)⟩

theorem announced?_of_promised {r : Response} (plain : r.promised = 0) (number : Nat) :
    r.announced? number = none := by
  rcases r with (_ | _ | _ | _ | _ | _ | _) | _
  case event.debug => simp at plain
  all_goals rfl

/-- Messages that announce nothing were queued, and no level is new. -/
def Session.Continues (s s' : Session) : Prop :=
  ∃ rs, s'.outbox = s.outbox ++ rs ∧ (∀ r ∈ rs, r.promised = 0) ∧
    ∀ n l, s'.debugger.level? n = some l → s.debugger.level? n = some l

theorem Session.Continues.of_eq {s s' : Session} (outbox : s'.outbox = s.outbox)
    (debugger : s'.debugger = s.debugger) : s.Continues s' :=
  ⟨[], by simp [outbox], by simp, by simp [debugger]⟩

/-- A step of a task announces nothing, unless it enters a level. -/
theorem Session.perform_continues {s s' : Session} {t t' : Task} {op : Op} {a : op.Result}
    (performed : s.perform t op = some (a, s', t')) (plain : op.promised = 0) :
    s.Continues s' ∨ ∃ l, s' = s.enter l := by
  have done := perform_eq_some performed
  cases op with
  | lockGate | lockGateWithin =>
    obtain ⟨outbox, debugger⟩ := enterGate?_outbox done
    exact .inl (.of_eq outbox debugger)
  | resolve number index =>
    obtain ⟨-, ⟨-, -, rfl⟩ | ⟨r, debugger, resolved, -, rfl⟩⟩ := done
    · exact .inl (.of_eq rfl rfl)
    · exact .inl ⟨[], by simp, by simp, fun n l => Debugger.level?_resolve resolved⟩
  | emit r =>
    obtain ⟨rfl, -⟩ := done
    exact .inl ⟨[r], rfl, by simpa using plain, fun n l active => active⟩
  | enter l =>
    obtain ⟨rfl, -⟩ := done
    exact .inr ⟨l, rfl⟩
  | flush =>
    obtain ⟨rfl, -⟩ := done
    exact .inl ⟨_, rfl, by simp [Chunk.response], fun n l active => active⟩
  | releaseGate =>
    obtain ⟨rfl, -⟩ := done
    exact .inl (.of_eq rfl rfl)
  | _ =>
    obtain ⟨outbox, debugger, -, -⟩ := done
    exact .inl (.of_eq outbox debugger)

namespace System

variable {sys sys' : System} {H es : List Entry}

/-- The announcements that an editor got fit the active levels. -/
structure Displayed (sys : System) (H : List Entry) : Prop where
  balanced : sys.Balanced H
  announced (number : Nat) : Announced sys.session.debugger sys.session.outbox number

theorem Displayed.continues (displayed : sys.Displayed H) (balanced : sys'.Balanced (H ++ es))
    (continues : sys.session.Continues sys'.session) : sys'.Displayed (H ++ es) := by
  obtain ⟨rs, outbox, plain, fewer⟩ := continues
  refine ⟨balanced, fun number => ?_⟩
  rw [outbox]
  exact (displayed.announced number).tell
    (fun r mem => announced?_of_promised (plain r mem) number) (fewer number)

/-- A level was closed as often as it was announced, but for the closings that are still owed: one
while it is active, and those that tasks have to send. -/
theorem Balanced.closings_add (balanced : sys.Balanced H) (number : Nat) :
    ∃ owed, Books H sys.tasks owed ∧
      closings number sys.session.outbox +
          (if (sys.session.debugger.level? number).isSome then 1 else 0) +
            owed.count (.closing number) =
        announcements number sys.session.outbox := by
  obtain ⟨owed, books, balance⟩ := balanced
  have counts := congrArg (Multiset.count (Debt.closing number)) balance
  simp only [Multiset.count_add, count_paidBy_closing, count_owes_closing,
    count_promisedBy_closing, count_incurredBy_closing, zero_add] at counts
  exact ⟨owed, books, counts⟩

/-- Only a step that enters a level announces one. -/
theorem Balanced.promised_eq_zero {l r : List Task} {t : Task} {op : Op}
    {next : op.Result → Program Unit} (balanced : sys.Balanced H)
    (split : sys.tasks = l ++ t :: r) (program : t.program = .step op next) : op.promised = 0 := by
  obtain ⟨total, books, -⟩ := balanced
  rw [split, Books.middle] at books
  obtain ⟨owed, rest, -, ⟨keeps, -⟩, -⟩ := books
  rw [program] at keeps
  exact keeps.1.2.1

/-- A level that is entered is announced with its request. -/
theorem Displayed.enter (displayed : sys.Displayed H) (balanced : sys'.Balanced (H ++ es))
    {l : Level} (entered : sys'.session = sys.session.enter l) : sys'.Displayed (H ++ es) := by
  refine ⟨balanced, fun number => ?_⟩
  rw [entered]
  by_cases new : number = sys.session.debugger.depth + 1
  · obtain ⟨owed, -, counts⟩ := displayed.balanced.closings_add number
    have last : LastAnnounced number (sys.session.enter l).outbox sys.session.outbox
        [.event (.debugActivate number)] l.id :=
      ⟨⟨.event (l.debugEvent number), by simp [Session.enter, Session.sendAll, new],
        by simp [Response.announced?, Level.debugEvent]⟩, by simp [Response.announced?]⟩
    refine .inr ⟨_, _, _, last, ?_, ?_⟩
    · omega
    · intro l' active
      have same : l = l' := by simpa [Session.enter, Debugger.level?_push, new] using active
      exact congrArg Level.id same.symm
  · refine (displayed.announced number).tell ?_ ?_
    · simp [Response.announced?, Level.debugEvent, Ne.symm new]
    · intro l' active
      simpa [Session.enter, Debugger.level?_push, new] using active

theorem displayed_invariant : Invariant Label.keepsTasks Displayed where
  move := by
    intro sys sys' H es _ displayed move
    have balanced := displayed.balanced.move move
    cases move with
    | perform split program performed =>
      have plain := displayed.balanced.promised_eq_zero split program
      rcases Session.perform_continues performed plain with continues | ⟨l, entered⟩
      · exact displayed.continues balanced continues
      · exact displayed.enter balanced entered
    | arrive =>
      obtain ⟨outbox, debugger⟩ := Session.arrive_outbox _ _ _
      exact displayed.continues balanced (.of_eq outbox debugger)
    | forward =>
      exact displayed.continues balanced
        ⟨_, rfl, by simp [Chunk.response], fun n l active => active⟩
    | answer | expire | finish | relay | tick =>
      exact displayed.continues balanced (.of_eq rfl rfl)
  arrival := by
    intro sys sys' H es payload _ _ displayed arrival
    have balanced := displayed.balanced.arrival arrival
    cases arrival with
    | refuse =>
      exact displayed.continues balanced ⟨_, rfl, by simp, fun n l active => active⟩
    | gated | free | refresh | input | silent =>
      exact displayed.continues balanced (.of_eq rfl rfl)
  cancel _ kept := kept.elim

/-- In every state that is reached without cancellations the announcements fit the levels. -/
theorem displayed_of_run {settings : Settings} {host : Host} {ls : List Label}
    (uncancelled : ∀ task, .cancel task ∉ ls)
    (ran : (System.new settings host).run ls = some sys) :
    sys.Displayed ((System.new settings host).history ls) := by
  have start : (System.new settings host).Displayed [] := by
    refine ⟨⟨0, rfl, rfl⟩, fun number => .inl ⟨?_, by simp [System.new, Session.new]⟩⟩
    simp [System.new, Session.new, Debugger.level?]
  refine (displayed_invariant.holds start (fun l mem => ?_) ran).2
  cases l with
  | cancel task => exact uncancelled task mem
  | _ => trivial

/-- With no request running, all that was announced is closed or active. -/
theorem Displayed.closings_eq (displayed : sys.Displayed H)
    (idle : ∀ t ∈ sys.tasks, ¬ Serves H t.id) (n : Nat) :
    closings n sys.session.outbox + (if (sys.session.debugger.level? n).isSome then 1 else 0) =
      announcements n sys.session.outbox := by
  obtain ⟨owed, books, counts⟩ := displayed.balanced.closings_add n
  simpa [books.eq_zero idle] using counts

/-- A reopened level is not seen: the closing of the earlier one came last. -/
theorem Displayed.view_of_reopened (displayed : sys.Displayed H)
    (idle : ∀ t ∈ sys.tasks, ¬ Serves H t.id) {n : Nat}
    (reopened : Reopened n sys.session.outbox) : editorView sys.session.outbox n = none := by
  obtain ⟨pre, post, id, last, unclosed⟩ := reopened
  obtain ⟨announced, closed⟩ := last.counts
  have counts := displayed.closings_eq idle n
  have closedLater : closings n post ≠ 0 := by
    split at counts <;> omega
  rw [last.editorView, if_neg closedLater]

/-- All other levels are seen as they are. -/
theorem Displayed.view_of_not_reopened (displayed : sys.Displayed H)
    (idle : ∀ t ∈ sys.tasks, ¬ Serves H t.id) {n : Nat}
    (kept : ¬ Reopened n sys.session.outbox) :
    editorView sys.session.outbox n = (sys.session.debugger.level? n).map Level.id := by
  obtain ⟨inactive, none⟩ | ⟨pre, post, id, last, ordered, named⟩ := displayed.announced n
  · rw [inactive, editorView, foldl_seeLevel _ none]
    simp
  · have unreopened : ¬ closings n pre < announcements n pre :=
      fun unclosed => kept ⟨pre, post, id, last, unclosed⟩
    obtain ⟨announced, closed⟩ := last.counts
    have counts := displayed.closings_eq idle n
    rw [last.editorView]
    cases active : sys.session.debugger.level? n with
    | none =>
      rw [active] at counts
      have closedLater : closings n post ≠ 0 := by
        simp at counts
        omega
      rw [if_neg closedLater, Option.map_none]
    | some l =>
      rw [active] at counts
      have unclosed : closings n post = 0 := by
        simp at counts
        omega
      rw [if_pos unclosed, Option.map_some, named l active]

/-- **The editor's view of the debugger.** With no request running, the levels that an editor sees
are the active ones, each with its request, but for reopened levels: the closing of an earlier
level of that number was queued after the announcement of the active one, so the editor does not see
it. -/
theorem editorView_eq_levels_iff {settings : Settings} {host : Host} {ls : List Label}
    (uncancelled : ∀ task, .cancel task ∉ ls)
    (ran : (System.new settings host).run ls = some sys)
    (idle : ∀ t ∈ sys.tasks, ¬ Serves ((System.new settings host).history ls) t.id) :
    (∀ n, Reopened n sys.session.outbox → editorView sys.session.outbox n = none) ∧
      (∀ n, ¬ Reopened n sys.session.outbox →
        editorView sys.session.outbox n = (sys.session.debugger.level? n).map Level.id) ∧
      (editorView sys.session.outbox = (fun n => (sys.session.debugger.level? n).map Level.id) ↔
        ∀ n, (sys.session.debugger.level? n).isSome → ¬ Reopened n sys.session.outbox) := by
  have displayed := displayed_of_run uncancelled ran
  have missing (n : Nat) (reopened : Reopened n sys.session.outbox) :=
    displayed.view_of_reopened idle reopened
  have seen (n : Nat) (kept : ¬ Reopened n sys.session.outbox) :=
    displayed.view_of_not_reopened idle kept
  refine ⟨missing, seen, ?_, ?_⟩
  · intro same n active reopened
    have unseen := missing n reopened
    rw [same, Option.map_eq_none_iff] at unseen
    simp [unseen] at active
  · intro kept
    funext n
    by_cases reopened : Reopened n sys.session.outbox
    · cases active : sys.session.debugger.level? n with
      | none => rw [missing n reopened, Option.map_none]
      | some l => exact absurd reopened (kept n (by simp [active]))
    · exact seen n reopened

/-- A level is left, and while the interpreter is being reset another request raises a condition:
its level is the first one again, and the closing of the level that was left comes after its
announcement. -/
theorem editorView_misses_reopened_level :
    let ls : List Label :=
      [.deliver "(:emacs-rex (swank:interactive-eval \"a\") nil t 1)",
       .resume 0, .resume 0, .resume 0,
       .answer 0 (.eval "a") (.error (.interpreter { message := "first" })), .resume 0,
       .deliver "(:emacs-rex (swank:invoke-nth-restart-for-emacs 1 0) nil t 2)",
       .resume 1, .resume 1,
       .deliver "(:emacs-rex (swank:interactive-eval \"b\") nil t 3)",
       .resume 2, .resume 2, .resume 2,
       .answer 2 (.eval "b") (.error (.interpreter { message := "second" })), .resume 2,
       .answer 1 .reset (.ok ()),
       .answer 1 (.command promptCommand .repl) (.error (.process "no prompt"))]
    ∃ sys, (System.new {}).run ls = some sys ∧ sys.tasks = [] ∧
      (sys.session.debugger.level? 1).map Level.id = some 3 ∧
      editorView sys.session.outbox 1 = none ∧
      ∃ n, (sys.session.debugger.level? n).isSome ∧ Reopened n sys.session.outbox := by
  intro ls
  have ends : ((System.new {}).run ls).map (fun sys => (sys.tasks.length,
      (sys.session.debugger.level? 1).map Level.id, editorView sys.session.outbox 1)) =
        some (0, some 3, none) := by
    decide +kernel
  obtain ⟨sys, ran, ends⟩ := Option.map_eq_some_iff.mp ends
  obtain ⟨length, ends⟩ := Prod.mk.inj ends
  obtain ⟨active, unseen⟩ := Prod.mk.inj ends
  have none : sys.tasks = [] := List.eq_nil_of_length_eq_zero length
  have differ : ¬ editorView sys.session.outbox =
      fun n => (sys.session.debugger.level? n).map Level.id := fun same => by
    simpa [unseen, active] using congrFun same 1
  have uncancelled : ∀ task, .cancel task ∉ ls := by simp [ls]
  have agree := (editorView_eq_levels_iff uncancelled ran (by simp [none])).2.2
  rw [agree] at differ
  exact ⟨sys, ran, none, active, unseen, by simpa using differ⟩

end System

end LispBridge
