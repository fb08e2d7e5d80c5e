import LispBridge.Proofs.Session.Alone
import LispBridge.Proofs.Session.RelayUse
import LispBridge.Proofs.Session.Records
import LispBridge.Proofs.Session.Steps
import LispBridge.Proofs.Session.Turns

/-!
Queries while an evaluation runs.

An evaluation holds the lock of the relay until the interpreter answers. A query that needs nothing
of it is answered meanwhile. The opening of the REPL is such a query until it knows the prompt; then
it drops the output there was before, and for that it has to wait until the evaluation is over.
-/

namespace LispBridge

/-! ### What comes of a query -/

/-- A request has got its result, or entered a debugger level that owes it. -/
def Told (H : List Entry) (id : TaskId) (r : RequestId) : Prop :=
  (∃ v, .sent (some id) (.result v r) ∈ H) ∨
    ∃ n l, l.id = r ∧ .sent (some id) (.event (Level.debugEvent l n)) ∈ H

/-- The interpreter has told a task the prompt, or something else in its place. -/
def Prompted (H : List Entry) (id : TaskId) : Prop :=
  ∃ value, .answered id (.command promptCommand .repl) (.ok value) ∈ H

/-- How far a query has come. -/
inductive Progress where
  /-- Nothing has come of it. -/
  | asking
  /-- It opens the REPL and knows the prompt. -/
  | prompted
  /-- It has got its result, or entered a debugger level. -/
  | told
deriving DecidableEq

/-- Whether a step comes to knowing the prompt. -/
def Op.prompts : (op : Op) → op.Result → Bool
  | .call (.command text channel) _, .ok _ => text = promptCommand && channel = .repl
  | _, _ => false

theorem Op.prompts_iff {c : Call} {relaying : Bool} {a : c.Answer} {id : TaskId} :
    (Op.call c relaying).prompts a = true ↔ Prompted [.answered id c a] id := by
  constructor
  · intro prompts
    cases c with
    | command text channel =>
      cases a with
      | error e => cases prompts
      | ok value =>
        simp only [Op.prompts, Bool.and_eq_true, decide_eq_true_eq] at prompts
        obtain ⟨rfl, rfl⟩ := prompts
        exact ⟨value, List.mem_singleton_self _⟩
    | _ => cases prompts
  · rintro ⟨value, mem⟩
    cases List.mem_singleton.mp mem
    simp [Op.prompts]

/-- What a query may do next. -/
def Progress.allows (r : RequestId) : Progress → Op → Prop
  | asking, .emit m => ∃ v, m = .result v r
  | asking, .enter l => l.id = r
  | asking, op => op.isAsking = true
  | prompted, op => op = .lockRelay ∨ ∃ p, op = .setPackage p
  | told, op => op = .releaseGate

/-- A query neither relays output nor waits for the gate. -/
theorem Progress.not_allows_relaying {x : Progress} {r : RequestId} {c : Call} :
    ¬ x.allows r (.call c true) := by
  cases x <;> simp [allows]

theorem Progress.not_allows_lockGateWithin {x : Progress} {r : RequestId} {limit : Nat} :
    ¬ x.allows r (.lockGateWithin limit) := by
  cases x <;> simp [allows]

/-- How far a query has come after a step. Nothing is said about a query that gets the right to take
output. -/
def Progress.follows (opens : Bool) : Progress → (op : Op) → op.Result → Progress → Prop
  | asking, .emit _, _, y | asking, .enter _, _, y => y = told
  | asking, op, a, y => y = if opens && op.prompts a then prompted else asking
  | prompted, op, _, y => op ≠ .lockRelay ∧ y = prompted
  | told, _, _, y => y = told

/-- The discipline of queries. -/
def Discipline.inquiring (opens : Bool) (r : RequestId) : Discipline Progress where
  allows x op := x.allows r op
  moves x op a y := x.follows opens op a y

namespace Discipline

variable {opens : Bool} {r : RequestId} {op : Op} {a : op.Result} {x y : Progress}

@[simp] theorem inquiring_allows :
    (inquiring opens r).allows x op ↔ x.allows r op := Iff.rfl

@[simp] theorem inquiring_moves :
    (inquiring opens r).moves x op a y ↔ x.follows opens op a y := Iff.rfl

theorem allows_of_isAsking (asks : op.isAsking = true) : Progress.asking.allows r op := by
  cases op <;> first | exact asks | cases asks

theorem follows_of_isAsking (asks : op.isAsking = true)
    (follows : Progress.asking.follows false op a y) : y = .asking := by
  cases op <;> first | exact follows | cases asks

end Discipline

section Programs

variable {opens : Bool} {i : RequestId}

namespace Action

/-- A query that only asks has nothing to wait for. -/
theorem IsInquiry.keeps_inquiring {a : Action Outcome} (inquiry : IsInquiry a) :
    Keeps (.inquiring false i) a .asking fun r y => Alone r ∧ y = .asking := by
  refine (Program.Keeps.simulate (fun _ y => y = .asking) ?_ ?_ rfl inquiry).mono ?_
  · rintro _ _ op rfl asks
    exact Discipline.allows_of_isAsking asks
  · rintro _ _ op a y rfl asks follows
    exact ⟨(), rfl, Discipline.follows_of_isAsking asks follows⟩
  · rintro r y ⟨_, rfl, alone⟩
    exact ⟨alone, rfl⟩

/-- The opening of the REPL asks for the prompt, and goes on to drop output if it is told. -/
theorem keeps_createRepl_inquiring :
    Keeps (.inquiring true i) createRepl .asking fun r y => Alone r ∧ y = .asking := by
  unfold createRepl fetchPrompt
  simp [Progress.allows, Progress.follows]
  rintro (e | value)
  · rfl
  · have prompted : (Op.call (.command promptCommand .repl) false).prompts (.ok value) = true := by
      simp [Op.prompts]
    cases named : Package.ofDatum? value with
    | none => simp [prompted, named, Program.discardOutput, Progress.allows, Progress.follows]
    | some p =>
      simp [prompted, named, Program.discardOutput, Progress.allows, Progress.follows, Except.map]

/-- Whatever a query does, it has not told anything when it ends. -/
theorem keeps_ofCommand_inquiring (settings : Settings) (host : Host) (r : Request) {c : Command}
    (free : c.needsGate = false) (noRestart : c.isRestart = false) :
    Keeps (.inquiring (c = .createRepl) i) (ofCommand settings host r c) .asking fun r y =>
      Alone r ∧ y = .asking := by
  by_cases opening : c = .createRepl
  · subst opening
    simpa [ofCommand] using keeps_createRepl_inquiring
  · simpa [opening] using
      (isInquiry_ofCommand settings host r free noRestart opening).keeps_inquiring

end Action

namespace Program

/-- The end of a query tells its result, or announces a level that owes it. -/
theorem keeps_conclude_inquiring {result : Except Failure Outcome} (alone : Alone result) :
    (conclude i result).Keeps (.inquiring opens i) .asking fun _ y => y = .told := by
  rcases result with e | outcome
  · cases e <;> simp [conclude, finish, Progress.allows, Progress.follows, Level.ofCondition,
      Level.ofProcessFailure]
  · have none := alone outcome rfl
    simp [conclude, finish, none, emitAll, Progress.allows, Progress.follows]

/-- A query keeps to the discipline of queries, and ends when it has told what came of it. -/
theorem keeps_serve_inquiring (settings : Settings) (host : Host) (r : Request) {c : Command}
    (free : c.needsGate = false) (noRestart : c.isRestart = false) :
    (serve settings host c r).Keeps (.inquiring (c = .createRepl) r.id) .asking fun _ y =>
      y = .told := by
  unfold serve
  simp [Progress.allows, Progress.follows, Op.prompts]
  apply (Action.keeps_ofCommand_inquiring settings host r free noRestart).mono
  rintro result y ⟨alone, rfl⟩
  apply (keeps_conclude_inquiring alone).mono
  rintro _ y rfl
  exact ⟨rfl, fun _ _ follows => follows⟩

end Program

end Programs

/-! ### An evaluation that goes on -/

namespace System

variable {sys sys' : System} {H es : List Entry} {e q : TaskId}

/-- A task waits for the end of an evaluation, with the right to take output. -/
structure Evaluates (sys : System) (e : TaskId) (p : Program Unit) : Prop where
  waits : ∃ t ∈ sys.tasks, t.id = e ∧ t.program = p
  holder : sys.session.relayLock.holder = some e

namespace Evaluates

variable {l r : List Task} {t : Task} {c : Call} {relaying : Bool} {next : c.Answer → Program Unit}

/-- The task that evaluates, if it is the one that is singled out. -/
theorem program_eq {p : Program Unit} (evaluates : sys.Evaluates e p) (numbered : sys.WellNumbered)
    (split : sys.tasks = l ++ t :: r) (same : t.id = e) : t.program = p := by
  obtain ⟨u, mem, isEvaluation, program⟩ := evaluates.waits
  obtain rfl := numbered.eq_of_id split mem (isEvaluation.trans same.symm)
  exact program

/-- What another task does leaves the evaluation alone. -/
theorem other {p : Program Unit} (evaluates : sys.Evaluates e p)
    (split : sys.tasks = l ++ t :: r) (other : t.id ≠ e)
    (moved : sys.session.relayLock.MovedBy t.id sys'.session.relayLock)
    (stay : ∀ u ∈ l ++ r, u ∈ sys'.tasks) : sys'.Evaluates e p := by
  refine ⟨?_, moved.holder evaluates.holder other⟩
  obtain ⟨u, mem, rfl, program⟩ := evaluates.waits
  refine ⟨u, stay u (mem_others_of_ne split mem ?_), rfl, program⟩
  rintro rfl
  exact other rfl

theorem mem_exchanged {t' : Task} : ∀ u ∈ l ++ r, u ∈ l ++ t' :: r :=
  fun _ mem => mem_singled.mpr (.inr mem)

/-- An evaluation goes on until the interpreter answers. -/
theorem move (evaluates : sys.Evaluates e (.step (.call c relaying) next))
    (numbered : sys.WellNumbered) (move : Move sys es sys')
    (unanswered : ∀ a, .answered e c a ∉ es) :
    sys'.Evaluates e (.step (.call c relaying) next) := by
  cases move with
  | @perform _ _ t t' op _ _ _ split program performed =>
    by_cases same : t.id = e
    · have waiting := evaluates.program_eq numbered split same
      cases program.symm.trans waiting
      cases performed
    · exact evaluates.other split same (Session.perform_movedBy performed) mem_exchanged
  | @arrive _ _ t op _ split program =>
    have asks := Session.arrive_relayLock sys.session t op
    by_cases same : t.id = e
    · refine ⟨⟨_, List.mem_append_right _ List.mem_cons_self, ?_, ?_⟩, ?_⟩
      · exact (Session.arrive_id sys.session t op).trans same
      · exact (Session.program_arrive sys.session t op).trans
          (evaluates.program_eq numbered split same)
      · rcases asks with same | joined
        · exact same ▸ evaluates.holder
        · show (sys.session.arrive t op).1.relayLock.holder = some e
          rw [joined, Lock.holder_join evaluates.holder]
    · exact evaluates.other split same (asks.imp id .inl) mem_exchanged
  | @answer _ _ t _ _ _ a split program =>
    by_cases same : t.id = e
    · have waiting := evaluates.program_eq numbered split same
      cases program.symm.trans waiting
      exact absurd (same ▸ List.mem_singleton_self _) (unanswered a)
    · exact evaluates.other split same (.inl rfl) mem_exchanged
  | @expire _ _ t _ _ split program =>
    by_cases same : t.id = e
    · have waiting := evaluates.program_eq numbered split same
      cases program.symm.trans waiting
    · exact evaluates.other split same (.inl rfl) mem_exchanged
  | @finish _ _ t split program =>
    by_cases same : t.id = e
    · have waiting := evaluates.program_eq numbered split same
      cases program.symm.trans waiting
    · exact evaluates.other split same (.inr (.inr rfl)) fun _ mem => mem
  | forward | relay | tick => exact ⟨evaluates.waits, evaluates.holder⟩

theorem arrival {p : Program Unit} {payload : String} (evaluates : sys.Evaluates e p)
    (arrival : Arrival sys payload es sys') : sys'.Evaluates e p := by
  obtain ⟨t, mem, same, program⟩ := evaluates.waits
  cases arrival with
  | gated | free | refresh | input =>
    exact ⟨⟨t, List.mem_append_left _ mem, same, program⟩, evaluates.holder⟩
  | refuse | silent => exact ⟨evaluates.waits, evaluates.holder⟩

theorem cancel {p : Program Unit} (evaluates : sys.Evaluates e p)
    (split : sys.tasks = l ++ t :: r) (spared : t.id ≠ e) :
    { sys with session := sys.session.leave t, tasks := l ++ r }.Evaluates e p :=
  evaluates.other split spared (.inr (.inr rfl)) fun _ mem => mem

end Evaluates

/-! ### A query that goes on -/

end System

section Seen

variable {H es : List Entry} {q : TaskId} {i : RequestId} {opens : Bool}

theorem told_append : Told (H ++ es) q i ↔ Told H q i ∨ Told es q i := by
  simp only [Told, List.mem_append, exists_or, and_or_left]
  exact or_or_or_comm

theorem prompted_append : Prompted (H ++ es) q ↔ Prompted H q ∨ Prompted es q := by
  simp only [Prompted, List.mem_append, exists_or]

theorem not_told_of_owner (others : ∀ e ∈ es, e.owner ≠ some q) : ¬ Told es q i := by
  rintro (⟨v, mem⟩ | ⟨n, l, -, mem⟩)
  · exact others _ mem rfl
  · exact others _ mem rfl

theorem not_prompted_of_owner (others : ∀ e ∈ es, e.owner ≠ some q) : ¬ Prompted es q := by
  rintro ⟨value, mem⟩
  exact others _ mem rfl

/-- What is seen of a query tells how far it has come. -/
def Progress.Fits (x : Progress) (opens : Bool) (i : RequestId) (q : TaskId) (H : List Entry) :
    Prop :=
  match x with
  | asking => ¬ Told H q i ∧ ¬ (opens = true ∧ Prompted H q)
  | prompted => ¬ Told H q i ∧ opens = true ∧ Prompted H q
  | told => Told H q i ∧ ¬ (opens = true ∧ Prompted H q)

namespace Progress.Fits

variable {x : Progress}

/-- What is neither told nor learnt is not noticed. -/
theorem silent (fits : x.Fits opens i q H) (noTold : ¬ Told es q i) (noPrompt : ¬ Prompted es q) :
    x.Fits opens i q (H ++ es) := by
  have sameTold : Told (H ++ es) q i ↔ Told H q i := by simp [told_append, noTold]
  have samePrompt : Prompted (H ++ es) q ↔ Prompted H q := by simp [prompted_append, noPrompt]
  cases x <;> simpa only [Fits, sameTold, samePrompt] using fits

/-- What others do is not noticed. -/
theorem others (fits : x.Fits opens i q H) (others : ∀ e ∈ es, e.owner ≠ some q) :
    x.Fits opens i q (H ++ es) :=
  fits.silent (not_told_of_owner others) (not_prompted_of_owner others)

/-- A query tells its result, or announces a level that owes it. -/
theorem tell (fits : Progress.asking.Fits opens i q H) (tells : Told es q i)
    (noPrompt : ¬ Prompted es q) : Progress.told.Fits opens i q (H ++ es) := by
  refine ⟨told_append.mpr (.inr tells), ?_⟩
  simpa [prompted_append, noPrompt] using fits.2

/-- A query that opens the REPL comes to know the prompt. -/
theorem learn (fits : Progress.asking.Fits opens i q H) (opening : opens = true)
    (noTold : ¬ Told es q i) (learns : Prompted es q) :
    Progress.prompted.Fits opens i q (H ++ es) := by
  refine ⟨?_, opening, prompted_append.mpr (.inr learns)⟩
  simpa [told_append, noTold] using fits.1

/-- What the interpreter answers to a query. -/
theorem answer (fits : x.Fits opens i q H) {c : Call} {relaying : Bool} {a : c.Answer}
    (allowed : x.allows i (.call c relaying)) :
    ∃ y, x.follows opens (.call c relaying) a y ∧ y.Fits opens i q (H ++ [.answered q c a]) := by
  have noTold : ¬ Told [.answered q c a] q i := by
    rintro (⟨v, mem⟩ | ⟨n, l, -, mem⟩) <;> cases List.mem_singleton.mp mem
  cases x with
  | prompted => rcases allowed with same | ⟨p, same⟩ <;> cases same
  | told => cases allowed
  | asking =>
    refine ⟨_, rfl, ?_⟩
    split
    · next learns =>
      rw [Bool.and_eq_true] at learns
      exact fits.learn learns.1 noTold (Op.prompts_iff.mp learns.2)
    · next ignorant =>
      refine ⟨by simpa [told_append, noTold] using fits.1, ?_⟩
      rintro ⟨opening, prompted⟩
      rcases prompted_append.mp prompted with before | now
      · exact fits.2 ⟨opening, before⟩
      · have learns : (Op.call c relaying).prompts a = true := Op.prompts_iff.mpr now
        exact ignorant (by rw [opening, learns, Bool.and_self])

/-- What a query does itself, unless it waits for others. -/
theorem perform {s s' : Session} {t t' : Task} {op : Op} {a : op.Result}
    (fits : x.Fits opens i t.id H) (allowed : x.allows i op)
    (performed : s.perform t op = some (a, s', t')) (free : op ≠ .lockRelay) :
    ∃ y, x.follows opens op a y ∧
      y.Fits opens i t.id (H ++ (t.admission op ++ (s.emitted op).map (.sent (some t.id)))) := by
  have nothing {y : Progress} (fits : y.Fits opens i t.id H) : y.Fits opens i t.id (H ++ []) := by
    rwa [List.append_nil]
  cases x with
  | prompted =>
    rcases allowed with waits | ⟨p, rfl⟩
    · exact absurd waits free
    · exact ⟨.prompted, ⟨free, rfl⟩, nothing fits⟩
  | told =>
    obtain rfl : op = .releaseGate := allowed
    exact ⟨.told, rfl, nothing fits⟩
  | asking =>
    cases op with
    | emit m =>
      obtain ⟨v, rfl⟩ := allowed
      refine ⟨.told, rfl, fits.tell (.inl ⟨v, List.mem_singleton_self _⟩) ?_⟩
      rintro ⟨value, mem⟩
      cases List.mem_singleton.mp mem
    | enter l =>
      refine ⟨.told, rfl, fits.tell (.inr ⟨_, l, allowed, List.mem_cons_self⟩) ?_⟩
      rintro ⟨value, mem⟩
      rcases List.mem_pair.mp mem with same | same <;> cases same
    | turn | close | clock | depth | setPackage =>
      exact ⟨.asking, by simp [follows, Op.prompts], nothing fits⟩
    | call => cases performed
    | _ => cases allowed

end Progress.Fits

end Seen

namespace System

variable {sys sys' : System} {H es : List Entry} {e q : TaskId} {opens : Bool} {i : RequestId}

/-- A query is on its way, or has come to its end. -/
def Inquires (sys : System) (q : TaskId) (opens : Bool) (i : RequestId) (H : List Entry) : Prop :=
  (∃ t ∈ sys.tasks, t.id = q ∧ ∃ x : Progress, x.Fits opens i q H ∧
    t.program.Keeps (.inquiring opens i) x fun _ y => y = .told) ∨
  Progress.told.Fits opens i q H ∧ ∀ t ∈ sys.tasks, t.id ≠ q

namespace Inquires

variable {l r : List Task} {t : Task}

/-- The task that serves the query, if it is the one that is singled out. -/
theorem keeps (inquires : sys.Inquires q opens i H) (numbered : sys.WellNumbered)
    (split : sys.tasks = l ++ t :: r) (same : t.id = q) :
    ∃ x : Progress, x.Fits opens i q H ∧
      t.program.Keeps (.inquiring opens i) x fun _ y => y = .told := by
  rcases inquires with ⟨u, mem, isQuery, fits⟩ | ⟨-, gone⟩
  · obtain rfl := numbered.eq_of_id split mem (isQuery.trans same.symm)
    exact fits
  · exact absurd same (gone t (mem_of_split split))

/-- The task that serves the query goes on. -/
theorem own {s : Session} {t' : Task} {x : Progress} (same : t'.id = q)
    (fits : x.Fits opens i q H)
    (keeps : t'.program.Keeps (.inquiring opens i) x fun _ y => y = .told) :
    { sys with session := s, tasks := l ++ t' :: r }.Inquires q opens i H :=
  .inl ⟨t', mem_singled.mpr (.inl rfl), same, x, fits, keeps⟩

/-- What another task does leaves the query alone. -/
theorem other (inquires : sys.Inquires q opens i H) (split : sys.tasks = l ++ t :: r)
    (other : t.id ≠ q) (owners : ∀ e ∈ es, e.owner ≠ some q)
    (stay : ∀ u ∈ l ++ r, u ∈ sys'.tasks) (come : ∀ u ∈ sys'.tasks, u ∈ l ++ r ∨ u.id = t.id) :
    sys'.Inquires q opens i (H ++ es) := by
  rcases inquires with ⟨u, mem, same, x, fits, keeps⟩ | ⟨fits, gone⟩
  · refine .inl ⟨u, stay u (mem_others_of_ne split mem ?_), same, x, fits.others owners, keeps⟩
    rintro rfl
    exact other same
  · refine .inr ⟨fits.others owners, ?_⟩
    intro u mem
    rcases come u mem with old | same
    · exact gone u (mem_of_mem_others split old)
    · exact fun isQuery => other (same.symm.trans isQuery)

/-- Nothing that the query's task could have done itself. -/
theorem pass (inquires : sys.Inquires q opens i H) (same : sys'.tasks = sys.tasks)
    (owners : ∀ e ∈ es, e.owner ≠ some q) : sys'.Inquires q opens i (H ++ es) := by
  rcases inquires with ⟨u, mem, isQuery, x, fits, keeps⟩ | ⟨fits, gone⟩
  · exact .inl ⟨u, same ▸ mem, isQuery, x, fits.others owners, keeps⟩
  · exact .inr ⟨fits.others owners, same ▸ gone⟩

theorem of_mem_exchanged {t' : Task} (same : t'.id = t.id) :
    ∀ u ∈ l ++ t' :: r, u ∈ l ++ r ∨ u.id = t.id := by
  intro u mem
  rcases mem_singled.mp mem with rfl | others
  · exact .inr same
  · exact .inl others

/-- What a task does is not seen of another. -/
theorem owner_perform {s : Session} {op : Op} (other : t.id ≠ q) :
    ∀ e ∈ t.admission op ++ (s.emitted op).map (.sent (some t.id)), e.owner ≠ some q := by
  intro e mem
  rcases List.mem_append.mp mem with admitted | sent
  · obtain ⟨k, rfl, -⟩ := Task.mem_admission admitted
    exact fun same => by cases same
  · obtain ⟨m, -, rfl⟩ := List.mem_map.mp sent
    exact fun same => other (Option.some.inj same)

/-- While another task has the right to take output, a query goes as far as it can without it. -/
theorem move (inquires : sys.Inquires q opens i H) (numbered : sys.WellNumbered)
    (held : sys.session.relayLock.holder = some e) (apart : e ≠ q) (move : Move sys es sys') :
    sys'.Inquires q opens i (H ++ es) := by
  cases move with
  | @perform l r t t' op next a s split program performed =>
    have id := Session.perform_id performed
    by_cases same : t.id = q
    · obtain ⟨x, fits, keeps⟩ := inquires.keeps numbered split same
      rw [program] at keeps
      have free : op ≠ .lockRelay := by
        rintro rfl
        have holds := Session.holder_of_perform performed
        rw [held, same] at holds
        exact apart (Option.some.inj holds)
      subst same
      obtain ⟨y, follows, fits'⟩ := fits.perform keeps.1 performed free
      exact own id fits' (keeps.2 a y follows)
    · exact inquires.other split same (owner_perform same) Evaluates.mem_exchanged
        (of_mem_exchanged id)
  | @arrive l r t op next split program =>
    have id := Session.arrive_id sys.session t op
    by_cases same : t.id = q
    · obtain ⟨x, fits, keeps⟩ := inquires.keeps numbered split same
      rw [List.append_nil]
      refine own (id.trans same) fits ?_
      show (sys.session.arrive t op).2.program.Keeps _ x _
      rwa [Session.program_arrive]
    · exact inquires.other split same (by simp) Evaluates.mem_exchanged (of_mem_exchanged id)
  | @answer l r t c relaying next a split program =>
    by_cases same : t.id = q
    · obtain ⟨x, fits, keeps⟩ := inquires.keeps numbered split same
      rw [program] at keeps
      subst same
      obtain ⟨y, follows, fits'⟩ := fits.answer (a := a) keeps.1
      exact own rfl fits' (keeps.2 a y follows)
    · refine inquires.other split same ?_ Evaluates.mem_exchanged (of_mem_exchanged rfl)
      intro e mem
      cases List.mem_singleton.mp mem
      exact fun isQuery => same (Option.some.inj isQuery)
  | @forward l r t c next chunk relay split program =>
    by_cases same : t.id = q
    · obtain ⟨x, -, keeps⟩ := inquires.keeps numbered split same
      rw [program] at keeps
      exact absurd keeps.1 Progress.not_allows_relaying
    · apply inquires.pass rfl
      intro e mem
      cases List.mem_singleton.mp mem
      exact fun isQuery => same (Option.some.inj isQuery)
  | @expire l r t limit next split program =>
    by_cases same : t.id = q
    · obtain ⟨x, -, keeps⟩ := inquires.keeps numbered split same
      rw [program] at keeps
      exact absurd keeps.1 Progress.not_allows_lockGateWithin
    · exact inquires.other split same (by simp) Evaluates.mem_exchanged (of_mem_exchanged rfl)
  | @finish l r t split program =>
    by_cases same : t.id = q
    · obtain ⟨x, fits, keeps⟩ := inquires.keeps numbered split same
      rw [program] at keeps
      obtain rfl : x = .told := keeps
      rw [List.append_nil]
      refine .inr ⟨fits, ?_⟩
      rw [← same]
      exact numbered.apart split
    · exact inquires.other split same (by simp) (fun _ mem => mem) fun _ mem => .inl mem
  | relay | tick => exact inquires.pass rfl (by simp)

theorem spawn {s : Session} {program : Program Unit} {place : Place}
    (inquires : sys.Inquires q opens i H) (known : q < sys.nextTask)
    (owners : ∀ e ∈ es, e.owner ≠ some q) :
    ({ sys with session := s }.spawn program place).Inquires q opens i (H ++ es) := by
  rcases inquires with ⟨u, mem, same, x, fits, keeps⟩ | ⟨fits, gone⟩
  · exact .inl ⟨u, List.mem_append_left _ mem, same, x, fits.others owners, keeps⟩
  · refine .inr ⟨fits.others owners, ?_⟩
    intro u mem
    rcases List.mem_append.mp mem with old | new
    · exact gone u old
    · obtain rfl := List.mem_singleton.mp new
      exact Nat.ne_of_gt known

theorem arrival {payload : String} (inquires : sys.Inquires q opens i H) (known : q < sys.nextTask)
    (arrival : Arrival sys payload es sys') : sys'.Inquires q opens i (H ++ es) := by
  cases arrival with
  | gated | free | refresh | input => exact inquires.spawn known (by simp [Entry.owner])
  | refuse | silent => exact inquires.pass rfl (by simp [Entry.owner])

theorem cancel (inquires : sys.Inquires q opens i H) (split : sys.tasks = l ++ t :: r)
    (spared : t.id ≠ q) :
    { sys with session := sys.session.leave t, tasks := l ++ r }.Inquires q opens i H := by
  have others : { sys with session := sys.session.leave t, tasks := l ++ r }.Inquires q opens i
      (H ++ []) :=
    inquires.other split spared (by simp) (fun _ mem => mem) fun _ mem => .inl mem
  rwa [List.append_nil] at others

end Inquires

/-- What is said of a query while an evaluation goes on. -/
structure Overlap (sys : System) (e q : TaskId) (p : Program Unit) (opens : Bool) (i : RequestId)
    (H : List Entry) : Prop where
  evaluates : sys.Evaluates e p
  known : q < sys.nextTask
  inquires : sys.Inquires q opens i H

/-- As long as the interpreter does not answer the evaluation, and neither task is cancelled. -/
theorem overlap_invariant {c : Call} {relaying : Bool} {next : c.Answer → Program Unit}
    (apart : e ≠ q) :
    Invariant (fun l => l ≠ .cancel e ∧ l ≠ .cancel q) fun sys H =>
      (∀ a, .answered e c a ∉ H) →
        sys.Overlap e q (.step (.call c relaying) next) opens i H where
  move := by
    intro sys sys' H es numbered overlap move unanswered
    simp only [List.mem_append, not_or] at unanswered
    obtain ⟨evaluates, known, inquires⟩ := overlap fun a => (unanswered a).1
    refine ⟨evaluates.move numbered move fun a => (unanswered a).2, ?_,
      inquires.move numbered evaluates.holder apart move⟩
    have same : sys'.nextTask = sys.nextTask := by cases move <;> rfl
    exact same ▸ known
  arrival := by
    intro sys sys' H es payload _ _ overlap arrival unanswered
    simp only [List.mem_append, not_or] at unanswered
    obtain ⟨evaluates, known, inquires⟩ := overlap fun a => (unanswered a).1
    refine ⟨evaluates.arrival arrival, ?_, inquires.arrival known arrival⟩
    have grows : sys.nextTask ≤ sys'.nextTask := by
      cases arrival <;> simp [System.spawn]
    exact Nat.lt_of_lt_of_le known grows
  cancel := by
    intro sys H l r t _ spared overlap split unanswered
    obtain ⟨evaluates, known, inquires⟩ := overlap unanswered
    refine ⟨evaluates.cancel split ?_, known, inquires.cancel split ?_⟩
    · exact fun same => spared.1 (same ▸ rfl)
    · exact fun same => spared.2 (same ▸ rfl)

/-- What the interpreter answers in a step is what the step is about. -/
theorem answered_mem_entries {id : TaskId} {c : Call} {a : c.Answer} {l : Label} :
    .answered id c a ∈ sys.entries l sys' ↔ l = .answer id c a := by
  constructor
  · intro mem
    rcases List.mem_append.mp mem with cause | sent
    · cases l with
      | deliver payload =>
        rcases List.mem_cons.mp cause with delivered | started
        · cases delivered
        · unfold System.started at started
          split at started
          case h_1 | h_2 | h_3 => cases List.mem_singleton.mp started
          all_goals cases started
      | resume other =>
        simp only [System.cause] at cause
        split at cause
        · obtain ⟨k, admitted, -⟩ := Task.mem_admission cause
          cases admitted
        · cases cause
      | answer other c' a' =>
        cases List.mem_singleton.mp cause
        rfl
      | _ => cases cause
    · obtain ⟨m, -, same⟩ := List.mem_map.mp sent
      cases same
  · rintro rfl
    exact List.mem_append_left _ (List.mem_singleton_self _)

/-- What the interpreter answers in a run is what the run says it answers. -/
theorem answered_mem_history {id : TaskId} {c : Call} {a : c.Answer} {ls : List Label} :
    ∀ {sys : System}, sys.run ls = some sys' →
      (.answered id c a ∈ sys.history ls ↔ .answer id c a ∈ ls) := by
  induction ls with
  | nil => simp [history]
  | cons l ls ih =>
    intro sys ran
    obtain ⟨mid, stepped, rest⟩ := Option.bind_eq_some_iff.mp ran
    rw [history, stepped, List.mem_append, List.mem_cons, answered_mem_entries, ih rest, eq_comm]

/-- A query that has not learnt or told anything can go on. -/
theorem fulfil_of_asking (reply : (c : Call) → c.Answer) (s : Session) (t : Task) {op : Op}
    (allowed : Progress.asking.allows i op) : s.fulfil reply t op ≠ none := by
  cases op with
  | turn | emit | close | call | depth | enter | setPackage => exact Option.some_ne_none _
  | clock => exact Option.some_ne_none _
  | _ => cases allowed

/-- A query is at rest when it has told what came of it, or when it waits for the right to take
output. -/
theorem Inquires.at_rest (inquires : sys.Inquires q opens i H) (numbered : sys.WellNumbered)
    (rests : sys.Rests q) : Told H q i ↔ ¬ (opens = true ∧ Prompted H q) := by
  have toldOrNot {x : Progress} (fits : x.Fits opens i q H) (notAsking : x ≠ .asking) :
      Told H q i ↔ ¬ (opens = true ∧ Prompted H q) := by
    cases x with
    | asking => exact absurd rfl notAsking
    | prompted => exact iff_of_false fits.1 (not_not_intro fits.2)
    | told => exact iff_of_true fits.1 fits.2
  rcases inquires with ⟨t, mem, rfl, x, fits, keeps⟩ | ⟨fits, -⟩
  · apply toldOrNot fits
    rintro rfl
    cases program : t.program with
    | done v =>
      rw [program] at keeps
      cases keeps
    | step op next =>
      rw [program] at keeps
      obtain ⟨before, after, split⟩ := List.append_of_mem mem
      let silence : (c : Call) → c.Answer := fun c => .error (.abort none)
      have stuck := (rests_iff silence numbered split program).mp rests
      exact fulfil_of_asking silence sys.session t keeps.1 stuck
  · exact toldOrNot fits (by simp)

/-- A query arrives while a task evaluates. -/
theorem overlap_of_deliver (owned : sys.RelayOwned) {t : Task} (mem : t ∈ sys.tasks)
    {code : String} {relaying : Bool} {next : (Call.eval code).Answer → Program Unit}
    (evaluates : t.program = .step (.call (.eval code) relaying) next) {payload : String}
    {command : Command} {r : Request} (serves : Delivery.ofPayload payload = .serve command r)
    (free : command.needsGate = false) (noRestart : command.isRestart = false) :
    (sys.deliver payload).Overlap t.id sys.nextTask (.step (.call (.eval code) relaying) next)
      (command = .createRepl) r.id [] := by
  have holder := owned.holder_of_eval mem evaluates
  have spawned : sys.deliver payload =
      sys.spawn (.serve sys.session.settings sys.session.host command r) := by
    simp [deliver, serves, free]
  constructor
  · exact Evaluates.arrival ⟨⟨t, mem, rfl, evaluates⟩, holder⟩ (sys.deliver_arrival payload)
  · rw [spawned]
    exact Nat.lt_succ_self _
  · rw [spawned]
    have asking : Progress.asking.Fits (command = .createRepl) r.id sys.nextTask [] := by
      simp [Progress.Fits, Told, Prompted]
    exact .inl ⟨_, List.mem_append_right _ (List.mem_singleton_self _), rfl, .asking, asking,
      Program.keeps_serve_inquiring _ _ r free noRestart⟩

/-- **Queries while an evaluation blocks.** While the interpreter does not answer the evaluation of
a task, and neither that task nor the query is cancelled, a query that cannot go on has its result,
or is in the debugger, unless it opens the REPL and the interpreter has told it the prompt: that one
waits for the evaluation, to drop its output. And every query gets to where it cannot go on, if its
own calls are answered. -/
theorem query_tells_iff {settings : Settings} {host : Host} {before : List Label}
    (ran : (System.new settings host).run before = some sys) {t : Task} (mem : t ∈ sys.tasks)
    {code : String} {relaying : Bool} {next : (Call.eval code).Answer → Program Unit}
    (evaluates : t.program = .step (.call (.eval code) relaying) next) {payload : String}
    {command : Command} {r : Request} (serves : Delivery.ofPayload payload = .serve command r)
    (free : command.needsGate = false) (noRestart : command.isRestart = false)
    {after : List Label} (blocks : ∀ a, .answer t.id (.eval code) a ∉ after)
    (spared : .cancel t.id ∉ after ∧ .cancel sys.nextTask ∉ after) {sys' : System}
    (ran' : (sys.deliver payload).run after = some sys') :
    (∃ t' ∈ sys'.tasks, t'.id = t.id ∧ t'.program = t.program) ∧
      (∀ reply, sys'.ComesToRest reply sys.nextTask) ∧
      (sys'.Rests sys.nextTask →
        (Told ((sys.deliver payload).history after) sys.nextTask r.id ↔
          ¬ (command = .createRepl ∧
            Prompted ((sys.deliver payload).history after) sys.nextTask))) := by
  obtain ⟨numbered, owned⟩ := relayOwned ran
  have apart : t.id ≠ sys.nextTask := Nat.ne_of_lt (numbered.below t mem)
  have start := overlap_of_deliver owned mem evaluates serves free noRestart
  have allowed : ∀ l ∈ after, l ≠ .cancel t.id ∧ l ≠ .cancel sys.nextTask := by
    intro l here
    constructor
    · rintro rfl
      exact spared.1 here
    · rintro rfl
      exact spared.2 here
  obtain ⟨numbered', overlap⟩ := (overlap_invariant apart).run
    (numbered.arrival (sys.deliver_arrival payload)) (fun _ => start) allowed ran'
  rw [List.nil_append] at overlap
  obtain ⟨evaluates', -, inquires⟩ :=
    overlap fun a seen => blocks a ((answered_mem_history ran').mp seen)
  rw [evaluates]
  refine ⟨evaluates'.waits, fun reply => comes_to_rest reply numbered' _, ?_⟩
  intro rests
  simpa using inquires.at_rest numbered' rests

/-- The REPL is opened while an evaluation blocks. The interpreter tells the prompt, and yet the
request gets no result. -/
theorem query_waits_with_prompt :
    let evaluation := "(:emacs-rex (swank:interactive-eval \"a\") nil t 1)"
    let opening := "(:emacs-rex (swank-repl:create-repl nil) nil t 2)"
    let prompt : Datum := .list [.str "USER", .str "irteusgl"]
    let before : List Label := [.deliver evaluation, .resume 0, .resume 0, .resume 0]
    let after : List Label :=
      [.resume 1, .answer 1 (.command promptCommand .repl) (.ok prompt), .resume 1]
    ∃ sys sys' : System, (System.new {}).run before = some sys ∧
      (sys.deliver opening).run after = some sys' ∧ sys'.Rests 1 ∧
      ¬ Told ((sys.deliver opening).history after) 1 2 := by
  intro evaluation opening prompt before after
  have serves : Delivery.ofPayload opening =
      .serve .createRepl ⟨"swank-repl:create-repl", [.nil], none, .t, 2⟩ := by
    decide +kernel
  have blocks : ((System.new {}).run before).map
      (fun sys => (sys.nextTask, sys.tasks.map fun t => (t.id, t.program.op?))) =
      some (1, [(0, some (.call (.eval "a") true))]) := by
    decide +kernel
  have waits : ((System.new {}).run (before ++ .deliver opening :: after)).map
      (fun sys => sys.tasks.map fun t => (t.id, t.program.op?)) =
      some [(0, some (.call (.eval "a") true)), (1, some .lockRelay)] := by
    decide +kernel
  obtain ⟨sys, ran, facts⟩ := Option.map_eq_some_iff.mp blocks
  obtain ⟨sys', ran', facts'⟩ := Option.map_eq_some_iff.mp waits
  obtain ⟨numbered, owned⟩ := relayOwned ran'
  have later : (sys.deliver opening).run after = some sys' := by
    rw [run_append, ran, Option.bind_some, run] at ran'
    obtain ⟨mid, stepped, rest⟩ := Option.bind_eq_some_iff.mp ran'
    obtain ⟨-, same⟩ := Option.ite_none_right_eq_some.mp stepped
    cases same
    exact rest
  simp only [Prod.mk.injEq, List.map_eq_cons_iff, List.map_eq_nil_iff] at facts facts'
  obtain ⟨isNext, t, _, tasks, ⟨isTask, evaluates⟩, rfl⟩ := facts
  obtain ⟨u, _, tasks', ⟨isTask', evaluates'⟩, q, _, rfl, ⟨isQuery, waits⟩, rfl⟩ := facts'
  obtain ⟨next, program⟩ := Program.op?_eq_some evaluates
  obtain ⟨next', program'⟩ := Program.op?_eq_some evaluates'
  obtain ⟨rest, programq⟩ := Program.op?_eq_some waits
  have held := owned.holder_of_eval (tasks' ▸ List.mem_cons_self) program'
  have rests : sys'.Rests 1 := by
    have split : sys'.tasks = [u] ++ q :: [] := tasks'
    rw [← isQuery, rests_iff (fun _ => .error (.abort none)) numbered split programq]
    simp [Session.fulfil, Session.perform, held, isTask', isQuery]
  refine ⟨sys, sys', ran, later, rests, ?_⟩
  obtain ⟨-, -, tells⟩ := query_tells_iff ran (tasks ▸ List.mem_cons_self) program serves rfl rfl
    (by simp [after]) (by simp [after]) later
  rw [isNext] at tells
  rw [tells rests, not_not]
  exact ⟨rfl, prompt, (answered_mem_history later).mpr (by simp [after])⟩

end System

end LispBridge
