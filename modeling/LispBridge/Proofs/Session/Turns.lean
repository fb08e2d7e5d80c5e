import LispBridge.Proofs.Session.Turn
import Mathlib.Data.List.Induction

/-!
The turns of a history: what is seen from one admission to the gate up to the next.

* `turns`: the turns in the order of admission.
* `eq_append_flatMap_turns`: a history is made of them, but for what precedes the first.
* `Turn.Finished`, `Turn.Undisturbed`: a turn that is complete, and one in which no refreshing of
  the prompt but its own is seen.
-/

namespace LispBridge

/-! ### The turns of a history -/

/-- A turn at the gate: a task, the ticket by which it was admitted, and all that is seen from then
on up to the next admission. -/
structure Turn where
  task : TaskId
  ticket : Ticket
  entries : List Entry := []

/-- The task by which something came about. -/
def Entry.owner : Entry → Option TaskId
  | .sent id _ => id
  | .answered id .. => some id
  | .delivered _ | .spawned .. | .admitted .. => none

/-- Whether a task was admitted. -/
def Entry.isAdmission : Entry → Bool
  | .admitted .. => true
  | _ => false

/-- The task that was admitted, with its ticket. -/
def Entry.admission? : Entry → Option (TaskId × Ticket)
  | .admitted id k => some (id, k)
  | _ => none

/-- The admissions of a history, in order. -/
def admissions (H : List Entry) : List (TaskId × Ticket) :=
  H.filterMap Entry.admission?

theorem admissions_append (H es : List Entry) :
    admissions (H ++ es) = admissions H ++ admissions es :=
  List.filterMap_append

theorem admissions_eq_nil {es : List Entry} (noAdmission : ∀ e ∈ es, e.isAdmission = false) :
    admissions es = [] := by
  refine List.filterMap_eq_nil_iff.mpr fun e mem => ?_
  cases e with
  | admitted => exact absurd (noAdmission _ mem) (by simp [Entry.isAdmission])
  | _ => rfl

theorem isAdmission_sentBy (id : TaskId) (rs : List Response) :
    ∀ e ∈ sentBy id rs, e.isAdmission = false := by
  simp [sentBy, Entry.isAdmission]

theorem owner_sentBy (id : TaskId) (rs : List Response) :
    ∀ e ∈ sentBy id rs, e.owner = some id := by
  simp [sentBy, Entry.owner]

namespace Turn

/-- What is seen of the task whose turn it is. -/
def own (t : Turn) : List Entry :=
  t.entries.filter (·.owner = some t.task)

/-- What is seen of everything else. -/
def others (t : Turn) : List Entry :=
  t.entries.filter (·.owner ≠ some t.task)

/-- What the task shows in the console in its turn. -/
def console (t : Turn) : List Response :=
  consoleOf t.own

/-- The admission that begins the turn. -/
def admission (t : Turn) : TaskId × Ticket :=
  (t.task, t.ticket)

/-- A turn with its admission. -/
def span (t : Turn) : List Entry :=
  .admitted t.task t.ticket :: t.entries

/-- A turn in which more is seen. -/
def see (t : Turn) (es : List Entry) : Turn :=
  { t with entries := t.entries ++ es }

@[simp] theorem see_task (t : Turn) (es : List Entry) : (t.see es).task = t.task := rfl

@[simp] theorem see_ticket (t : Turn) (es : List Entry) : (t.see es).ticket = t.ticket := rfl

theorem see_own (t : Turn) (es : List Entry) :
    (t.see es).own = t.own ++ es.filter (·.owner = some t.task) :=
  List.filter_append _ _

theorem see_own_of_others {t : Turn} {es : List Entry} (others : ∀ e ∈ es, e.owner ≠ some t.task) :
    (t.see es).own = t.own := by
  have none : es.filter (·.owner = some t.task) = [] :=
    List.filter_eq_nil_iff.mpr fun e mem => by simpa using others e mem
  rw [see_own, none, List.append_nil]

theorem see_own_of_owned {t : Turn} {es : List Entry} (owned : ∀ e ∈ es, e.owner = some t.task) :
    (t.see es).own = t.own ++ es := by
  have all : es.filter (·.owner = some t.task) = es :=
    List.filter_eq_self.mpr fun e mem => by simpa using owned e mem
  rw [see_own, all]

theorem see_others (t : Turn) (es : List Entry) :
    (t.see es).others = t.others ++ es.filter (·.owner ≠ some t.task) :=
  List.filter_append _ _

end Turn

/-- The turns so far and what is seen next, with the latest turn first. What precedes the first
admission belongs to no turn. -/
def seeTurn : List Turn → Entry → List Turn
  | ts, .admitted id k => { task := id, ticket := k } :: ts
  | [], _ => []
  | t :: ts, e => t.see [e] :: ts

/-- The turns of a history, the latest first. -/
def latestTurns (H : List Entry) : List Turn :=
  H.foldl seeTurn []

/-- The turns of a history, in the order of admission. -/
def turns (H : List Entry) : List Turn :=
  (latestTurns H).reverse

variable {H es : List Entry} {t : Turn} {ts : List Turn}

theorem latestTurns_admitted (H : List Entry) (id : TaskId) (k : Ticket) :
    latestTurns (H ++ [.admitted id k]) = { task := id, ticket := k } :: latestTurns H := by
  rw [latestTurns, List.foldl_append]
  rfl

/-- Without an admission the latest turn goes on. -/
theorem foldl_seeTurn_cons (noAdmission : ∀ e ∈ es, e.isAdmission = false) :
    es.foldl seeTurn (t :: ts) = t.see es :: ts := by
  induction es generalizing t with
  | nil => simp [Turn.see]
  | cons e es ih =>
    rw [List.forall_mem_cons] at noAdmission
    have first : seeTurn (t :: ts) e = t.see [e] :: ts := by
      cases e with
      | admitted => simp [Entry.isAdmission] at noAdmission
      | _ => rfl
    rw [List.foldl_cons, first, ih noAdmission.2]
    simp [Turn.see]

theorem foldl_seeTurn_nil (noAdmission : ∀ e ∈ es, e.isAdmission = false) :
    es.foldl seeTurn [] = [] := by
  induction es with
  | nil => rfl
  | cons e es ih =>
    rw [List.forall_mem_cons] at noAdmission
    have first : seeTurn [] e = [] := by
      cases e with
      | admitted => simp [Entry.isAdmission] at noAdmission
      | _ => rfl
    rw [List.foldl_cons, first, ih noAdmission.2]

theorem latestTurns_append (H es : List Entry) :
    latestTurns (H ++ es) = es.foldl seeTurn (latestTurns H) :=
  List.foldl_append

theorem latestTurns_append_cons (latest : latestTurns H = t :: ts)
    (noAdmission : ∀ e ∈ es, e.isAdmission = false) : latestTurns (H ++ es) = t.see es :: ts := by
  rw [latestTurns_append, latest, foldl_seeTurn_cons noAdmission]

theorem latestTurns_append_nil (none : latestTurns H = [])
    (noAdmission : ∀ e ∈ es, e.isAdmission = false) : latestTurns (H ++ es) = [] := by
  rw [latestTurns_append, none, foldl_seeTurn_nil noAdmission]

/-- Whose turns there were is decided by admissions. -/
theorem forall_task_append {P : TaskId → Prop} (noAdmission : ∀ e ∈ es, e.isAdmission = false) :
    (∀ t ∈ latestTurns (H ++ es), P t.task) ↔ ∀ t ∈ latestTurns H, P t.task := by
  cases latest : latestTurns H with
  | nil => rw [latestTurns_append_nil latest noAdmission]
  | cons t ts =>
    rw [latestTurns_append_cons latest noAdmission, List.forall_mem_cons, List.forall_mem_cons]
    rfl

/-- There is a turn for each admission. -/
theorem map_admission_turns (H : List Entry) : (turns H).map Turn.admission = admissions H := by
  induction H using List.reverseRecOn with
  | nil => rfl
  | append_singleton H e ih =>
    rw [admissions_append, ← ih]
    by_cases admission : e.isAdmission = true
    · cases e with
      | admitted id k =>
        rw [turns, latestTurns_admitted, List.reverse_cons, List.map_append, ← turns]
        rfl
      | _ => simp [Entry.isAdmission] at admission
    · have noAdmission : ∀ e' ∈ [e], e'.isAdmission = false := by simpa using admission
      rw [admissions_eq_nil noAdmission, List.append_nil]
      cases latest : latestTurns H with
      | nil => rw [turns, turns, latestTurns_append_nil latest noAdmission, latest]
      | cons t ts =>
        rw [turns, turns, latestTurns_append_cons latest noAdmission, latest]
        simp [Turn.admission]

/-- A history is what precedes the first admission, followed by the turns. -/
theorem eq_append_flatMap_turns (H : List Entry) :
    ∃ opening, admissions opening = [] ∧ H = opening ++ (turns H).flatMap Turn.span := by
  induction H using List.reverseRecOn with
  | nil => exact ⟨[], rfl, rfl⟩
  | append_singleton H e ih =>
    obtain ⟨opening, idle, split⟩ := ih
    by_cases admission : e.isAdmission = true
    · cases e with
      | admitted id k =>
        refine ⟨opening, idle, ?_⟩
        rw [turns, latestTurns_admitted, List.reverse_cons, List.flatMap_append, ← turns,
          ← List.append_assoc, ← split]
        rfl
      | _ => simp [Entry.isAdmission] at admission
    · have noAdmission : ∀ e' ∈ [e], e'.isAdmission = false := by simpa using admission
      cases latest : latestTurns H with
      | nil =>
        refine ⟨opening ++ [e], ?_, ?_⟩
        · rw [admissions_append, idle, admissions_eq_nil noAdmission, List.append_nil]
        · rw [turns, latest] at split
          rw [turns, latestTurns_append_nil latest noAdmission]
          simpa using split
      | cons t ts =>
        refine ⟨opening, idle, ?_⟩
        rw [turns, latest] at split
        rw [turns, latestTurns_append_cons latest noAdmission]
        rw [List.reverse_cons, List.flatMap_append, ← List.append_assoc] at split ⊢
        rw [split, List.append_assoc]
        simp [Turn.span, Turn.see]

/-! ### What a turn tells -/

theorem mem_responses {r : Response} : r ∈ responses es ↔ ∃ o, .sent o r ∈ es := by
  simp only [responses, List.mem_filterMap]
  constructor
  · rintro ⟨e, mem, sent⟩
    cases e with
    | sent o r' =>
      obtain rfl : r' = r := by simpa [Entry.response?] using sent
      exact ⟨o, mem⟩
    | _ => simp [Entry.response?] at sent
  · rintro ⟨o, mem⟩
    exact ⟨_, mem, rfl⟩

/-- What shows nothing in the console may be left out of it. -/
theorem consoleOf_filter {p : Entry → Bool}
    (kept : ∀ o r, .sent o r ∈ es → r.isConsole = true → p (.sent o r) = true) :
    consoleOf (es.filter p) = consoleOf es := by
  induction es with
  | nil => rfl
  | cons e es ih =>
    have ih := ih fun o r mem => kept o r (List.mem_cons_of_mem e mem)
    have split (e : Entry) (es : List Entry) :
        consoleOf (e :: es) = consoleOf [e] ++ consoleOf es :=
      consoleOf_append [e] es
    by_cases keep : p e = true
    · rw [List.filter_cons_of_pos keep, split, ih, ← split]
    · have silent : consoleOf [e] = [] := by
        cases e with
        | sent o r =>
          have quiet : r.isConsole = false := by
            simpa using mt (kept o r List.mem_cons_self) keep
          exact List.filter_eq_nil_iff.mpr fun m mem => by
            rw [List.mem_singleton.mp mem, quiet]
            exact Bool.false_ne_true
        | _ => rfl
      rw [List.filter_cons_of_neg keep, split e, silent, ih, List.nil_append]

namespace Turn

/-- A turn that is over. -/
def Finished (H : List Entry) (t : Turn) : Prop :=
  ∃ work ticket, .spawned t.task work ticket ∈ H ∧ Complete t.task work t.own

/-- Whatever other tasks send in a turn, they send it as tasks of requests. -/
def Undisturbed (H : List Entry) (t : Turn) : Prop :=
  ∀ id r, .sent (some id) r ∈ t.others → Serves H id

theorem Finished.append (finished : t.Finished H) (es : List Entry) : t.Finished (H ++ es) := by
  obtain ⟨work, ticket, spawned, complete⟩ := finished
  exact ⟨work, ticket, List.mem_append_left es spawned, complete⟩

theorem Undisturbed.append (undisturbed : t.Undisturbed H) (es : List Entry) :
    t.Undisturbed (H ++ es) :=
  fun id r mem => (undisturbed id r mem).append es

end Turn

end LispBridge
