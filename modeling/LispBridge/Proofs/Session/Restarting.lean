import LispBridge.Proofs.Debugger.Levels
import LispBridge.Proofs.Session.Alone
import LispBridge.Proofs.Session.RelayUse

/-!
Leaving a debugger level: who is told what, and in which order.

`Session.afterRestart` says what a session has become when a request has left a level, whatever the
interpreter made of it. The request does nothing else, and nothing can keep it from coming to its
end (`System.restart_answers_everyone`).
-/

namespace LispBridge

/-! ### What is to happen -/

/-- The result that the request of a level gets when the level is left. -/
def Settings.dismissal (settings : Settings) (l : Level) : Response :=
  .result (.abort (some (headline l.message settings.delimiter))) l.id

/-- What is told of levels that are left, innermost first: each is closed, and its request gets its
result. -/
def Settings.dismissals (settings : Settings) (levels : List (Level × Nat)) : List Response :=
  levels.reverse.flatMap fun (l, number) => [.event (.debugReturn number), settings.dismissal l]

section Replies

variable (reply : (c : Call) → c.Answer)

/-- The package and the prompt, if the interpreter tells them. -/
def promptReplied : Option Package :=
  match reply (.command promptCommand .repl) with
  | .ok value => Package.ofDatum? value
  | .error _ => none

/-- What a restart asks of the interpreter. -/
def restartCalls : Option Restart → List Call
  | some .quit => [.reset]
  | some .restart =>
    match reply .stop with
    | .ok _ => [.stop, .start]
    | .error _ => [.stop]
  | some .continue | none => []

/-- A session after a request has left a debugger level, with what the interpreter replied. Levels
are numbered from one, outermost first. -/
def Session.afterRestart (s : Session) (id : RequestId) (number index : Nat) : Session :=
  match s.debugger.level? number with
  | none => s.send (.result (.error s!"malformed message: no debugger level {number} is active") id)
  | some level =>
    let action := level.restartAt? index
    let all := action = some .quit ∨ action = some .restart
    let levels := s.debugger.levels.zipIdx 1
    { s with
      outbox := s.outbox ++
        s.settings.dismissals (levels.drop number) ++
        [.event (.debugReturn number), .result (.abort (some "NIL")) id] ++
        (promptReplied reply).toList.map (fun p => .event (.newPackage p.name p.prompt)) ++
        [s.settings.dismissal level] ++
        if all then s.settings.dismissals (levels.take (number - 1)) else []
      debugger := ⟨if all then [] else s.debugger.levels.take (number - 1)⟩
      package := (promptReplied reply).getD s.package
      asked := s.asked ++
        (restartCalls reply action ++ [Call.command promptCommand .repl]).map Ask.call
      relay := if action = some .restart then { s.relay with queue := [] } else s.relay }

end Replies

/-! ### What the program does -/

variable {reply : (c : Call) → c.Answer}

namespace Session

variable {α β : Type} {s : Session} {t : Task}

@[simp] theorem alone_pure {v : α} :
    s.alone reply t (pure v : Action α).run = some (.ok v, s, t) := rfl

@[simp] theorem alone_throw {e : Failure} :
    s.alone reply t (throw e : Action α).run = some (.error e, s, t) := rfl

@[simp] theorem alone_ofAnswer {p : Program (Except Failure α)} :
    s.alone reply t (Action.ofAnswer p).run = s.alone reply t p := rfl

/-- An action followed by another, which is not run if the first fails. -/
theorem alone_action_bind {a : Action α} {f : α → Action β} :
    s.alone reply t (a >>= f).run = (s.alone reply t a.run).bind fun (r, s, t) =>
      match r with
      | .ok v => s.alone reply t (f v).run
      | .error e => some (.error e, s, t) := by
  rw [ExceptT.run_bind, alone_bind]
  refine congrArg (Option.bind _) (funext fun (r, s, t) => ?_)
  cases r <;> rfl

variable {s' : Session} {t' : Task}

/-- An action that is done, and another that follows it. -/
theorem alone_then {a : Action α} {f : α → Action β} {v : α}
    {left : Option (Except Failure β × Session × Task)}
    (first : s.alone reply t a.run = some (.ok v, s', t'))
    (rest : s'.alone reply t' (f v).run = left) : s.alone reply t (a >>= f).run = left := by
  rw [alone_action_bind, first]
  exact rest

/-- A program within an action. -/
theorem alone_lift {p : Program α} {v : α} (ran : s.alone reply t p = some (v, s', t')) :
    s.alone reply t (liftM p : Action α).run = some (.ok v, s', t') := by
  change s.alone reply t (Except.ok <$> p) = _
  rw [alone_map, ran]
  rfl

/-- A failure that does not matter is a value to the caller. -/
theorem alone_attempt {a : Action α} {r : Except Failure α}
    (ran : s.alone reply t a.run = some (r, s', t')) :
    s.alone reply t a.attempt.run = some (.ok r, s', t') :=
  alone_lift ran

/-- A step within an action. -/
theorem alone_perform {op : Op} {r : op.Result} (passed : s.pass reply t op = some (r, s', t')) :
    s.alone reply t (liftM (Program.perform op) : Action op.Result).run = some (.ok r, s', t') := by
  refine alone_lift ?_
  simp [passed]

end Session

section Steps

-- A task that has nothing of the gate.
variable {s : Session} {id : TaskId} {q : Program Unit}

@[simp] theorem Session.pass_turn :
    s.pass reply { id, program := q } .turn = some ((), s, { id, program := q }) := rfl

@[simp] theorem Session.pass_emit {r : Response} :
    s.pass reply { id, program := q } (.emit r) = some ((), s.send r, { id, program := q }) := rfl

@[simp] theorem Session.pass_call {c : Call} {relaying : Bool} :
    s.pass reply { id, program := q } (.call c relaying) =
      some (reply c, s.ask (.call c), { id, program := q }) := rfl

@[simp] theorem Session.pass_setPackage {p : Package} :
    s.pass reply { id, program := q } (.setPackage p) =
      some ((), { s with package := p }, { id, program := q }) := rfl

@[simp] theorem Session.pass_releaseGate :
    s.pass reply { id, program := q } .releaseGate = some ((), s, { id, program := q }) := rfl

theorem Session.pass_resolve {number index : Nat} :
    s.pass reply { id, program := q } (.resolve number index) =
      match s.debugger.resolve number index with
      | some (r, debugger) => some (some r, { s with debugger }, { id, program := q })
      | none => some (none, s, { id, program := q }) := rfl

/-- Messages are queued one after another; the induction is on the messages. -/
theorem Session.alone_emitAll (rs : List Response) : ∀ s : Session,
    s.alone reply { id, program := q } (Program.emitAll rs) =
      some ((), s.sendAll rs, { id, program := q }) := by
  induction rs with
  | nil =>
    intro s
    simp [Program.emitAll, sendAll]
  | cons r rs ih =>
    intro s
    simp [Program.emitAll, ih, sendAll, send]

/-- The prompt is asked for, and remembered if it is told. -/
theorem Session.alone_fetchPrompt :
    s.alone reply { id, program := q } Action.fetchPrompt.run =
      some ((reply (.command promptCommand .repl)).map Package.ofDatum?,
        { s.ask (.call (.command promptCommand .repl)) with
          package := (promptReplied reply).getD s.package }, { id, program := q }) := by
  unfold promptReplied Action.fetchPrompt
  rw [alone_action_bind]
  cases replied : reply (.command promptCommand .repl) with
  | error e => simp [replied, ask, Except.map]
  | ok value =>
    cases named : Package.ofDatum? value with
    | none => simp [replied, ask, named, Except.map]
    | some p => simp [replied, ask, named, Except.map]

theorem promptMessages_reply :
    Action.promptMessages ((reply (.command promptCommand .repl)).map Package.ofDatum?) =
      (promptReplied reply).toList.map (fun p => .event (.newPackage p.name p.prompt)) := by
  unfold promptReplied
  cases reply (.command promptCommand .repl) with
  | error e => rfl
  | ok value => cases named : Package.ofDatum? value <;> simp [Except.map, named] <;> rfl

/-- Output is dropped if nobody else has the right to it. -/
theorem Session.alone_discardOutput (free : s.relayLock = {}) :
    s.alone reply { id, program := q } Program.discardOutput =
      some (s.relay.queue.length, { s with relay := { s.relay with queue := [] } },
        { id, program := q }) := by
  have locked : s.pass reply { id, program := q } .lockRelay =
      some ((), { s with relayLock := ⟨some id, []⟩ }, { id, program := q }) := by
    simp [pass, Op.isAwait, await, arrive, deadlineOf, fulfil, perform, free, Lock.join]
  have discarded (s : Session) : s.pass reply { id, program := q } .discard =
      some (s.relay.queue.length, { s with relay := s.relay.flush.2 }, { id, program := q }) := rfl
  have unlocked (s : Session) : s.pass reply { id, program := q } .unlockRelay =
      some ((), { s with relayLock := s.relayLock.leave id }, { id, program := q }) := rfl
  simp [Program.discardOutput, locked, discarded, unlocked, Relay.flush, Lock.leave, free]

/-- What a restart asks of the interpreter, and what it drops. -/
theorem Session.alone_applyRestart (action : Option Restart)
    (free : action = some .restart → s.relayLock = {}) :
    s.alone reply { id, program := q } (Program.applyRestart action) =
      some ((), { s with
        asked := s.asked ++ (restartCalls reply action).map Ask.call
        relay := if action = some .restart then { s.relay with queue := [] } else s.relay },
        { id, program := q }) := by
  rcases action with _ | _ | _ | _
  · simp [Program.applyRestart, restartCalls]
  · simp [Program.applyRestart, restartCalls, ask]
  · simp [Program.applyRestart, restartCalls]
  · have dropped (s' : Session) (same : s'.relayLock = s.relayLock) :
        s'.alone reply { id, program := q } Program.discardOutput =
          some (s'.relay.queue.length, { s' with relay := { s'.relay with queue := [] } },
            { id, program := q }) :=
      alone_discardOutput (same.trans (free rfl))
    cases stopped : reply .stop with
    | error e =>
      simp [Program.applyRestart, Program.restartInterpreter, restartCalls, stopped, dropped, ask]
    | ok _ =>
      simp [Program.applyRestart, Program.restartInterpreter, restartCalls, stopped, dropped, ask]

/-- The levels that are left, as the program lists them. -/
theorem unwoundMessages_innermostFirst (settings : Settings) (levels : List Level) (first : Nat) :
    Program.unwoundMessages settings (Debugger.innermostFirst levels first) =
      settings.dismissals (levels.zipIdx first) := by
  have swapped : Debugger.innermostFirst levels first =
      (levels.zipIdx first).reverse.map fun (l, n) => (n, l) := by
    rw [Debugger.innermostFirst, List.mapIdx_eq_zipIdx_map, List.map_reverse]
    rw [List.zipIdx_eq_map_add (i := first)]
    simp
  simp only [Program.unwoundMessages, Settings.dismissals, swapped, List.flatMap_map]
  rfl

/-- The levels above one keep their numbers. -/
theorem drop_zipIdx {α : Type} (levels : List α) (number : Nat) :
    (levels.zipIdx 1).drop number = (levels.drop number).zipIdx (number + 1) := by
  apply List.ext_getElem?
  intro i
  simp only [List.getElem?_drop, List.getElem?_zipIdx]
  rw [Nat.add_right_comm, Nat.add_comm 1]

/-- So do the levels below. -/
theorem take_zipIdx {α : Type} (levels : List α) (number : Nat) :
    (levels.zipIdx 1).take number = (levels.take number).zipIdx 1 := by
  apply List.ext_getElem?
  intro i
  simp only [List.getElem?_take, List.getElem?_zipIdx]
  split <;> simp

/-- A restart clears the stack unless it is to continue. -/
theorem any_clearsStack (action : Option Restart) :
    action.any Restart.clearsStack = true ↔ action = some .quit ∨ action = some .restart := by
  rcases action with _ | _ | _ | _ <;> simp [Restart.clearsStack]

/-- Leaving an active level: what is told before the result of the request, and what after it. -/
theorem Session.alone_invokeRestart {level : Level} {number index : Nat}
    (active : s.debugger.level? number = some level)
    (free : level.restartAt? index = some .restart → s.relayLock = {}) :
    s.alone reply { id, program := q } (Action.invokeRestart s.settings number index).run =
      some (.ok ((promptReplied reply).toList.map (fun p => .event (.newPackage p.name p.prompt)) ++
          [s.settings.dismissal level] ++
          if level.restartAt? index = some .quit ∨ level.restartAt? index = some .restart then
            s.settings.dismissals ((s.debugger.levels.zipIdx 1).take (number - 1)) else []),
        { s with
          outbox := s.outbox ++ s.settings.dismissals ((s.debugger.levels.zipIdx 1).drop number) ++
            [.event (.debugReturn number)]
          debugger := ⟨if level.restartAt? index = some .quit ∨
            level.restartAt? index = some .restart then [] else
              s.debugger.levels.take (number - 1)⟩
          package := (promptReplied reply).getD s.package
          asked := s.asked ++ (restartCalls reply (level.restartAt? index) ++
            [Call.command promptCommand .repl]).map Ask.call
          relay := if level.restartAt? index = some .restart then { s.relay with queue := [] }
            else s.relay }, { id, program := q }) := by
  have left := Debugger.resolve_of_level? active index
  have applied (s' : Session) (same : s'.relayLock = s.relayLock) :
      s'.alone reply { id, program := q } (Program.applyRestart (level.restartAt? index)) =
        some ((), { s' with
          asked := s'.asked ++ (restartCalls reply (level.restartAt? index)).map Ask.call
          relay := if level.restartAt? index = some .restart then { s'.relay with queue := [] }
            else s'.relay }, { id, program := q }) :=
    alone_applyRestart _ fun restarts => same.trans (free restarts)
  refine alone_then (alone_perform (by rw [pass_resolve, left])) ?_
  refine alone_then (alone_lift (alone_emitAll _ _)) ?_
  refine alone_then (alone_lift (applied _ rfl)) ?_
  refine alone_then (alone_perform pass_emit) ?_
  refine alone_then (alone_attempt alone_fetchPrompt) ?_
  have below : Program.unwoundMessages s.settings
      (if (level.restartAt? index).any Restart.clearsStack = true then
        Debugger.innermostFirst (s.debugger.levels.take (number - 1)) 1 else []) =
      if level.restartAt? index = some .quit ∨ level.restartAt? index = some .restart then
        s.settings.dismissals ((s.debugger.levels.zipIdx 1).take (number - 1)) else [] := by
    simp only [any_clearsStack]
    split
    · rw [unwoundMessages_innermostFirst, take_zipIdx]
    · rfl
  simp only [alone_pure, below, promptMessages_reply, unwoundMessages_innermostFirst, drop_zipIdx]
  simp [any_clearsStack, sendAll, send, ask, Program.unwoundResult, Settings.dismissal]

/-- The failure of a request that names a level that is not active. -/
theorem message_inactive (number : Nat) :
    (Failure.malformed s!"no debugger level {number} is active").message =
      s!"malformed message: no debugger level {number} is active" := by
  have message (detail : String) :
      (Failure.malformed detail).message = s!"malformed message: {detail}" := rfl
  have joined : "malformed message: no debugger level " =
      "malformed message: " ++ "no debugger level " := by decide
  rw [message]
  simp only [toString, joined, String.append_assoc]

/-- A request that leaves a level, from its first step to its last. -/
theorem Session.alone_serve {host : Host} {r : Request} {number index : Nat}
    (isLevel : r.countArg 0 = .ok number) (isIndex : r.countArg 1 = .ok index)
    (free : (s.debugger.level? number).bind (·.restartAt? index) = some .restart →
      s.relayLock = {}) :
    s.alone reply { id, program := q } (Program.serve s.settings host .invokeNthRestart r) =
      some ((), s.afterRestart reply r.id number index, { id, program := q }) := by
  have command : s.alone reply { id, program := q }
      (Action.ofCommand s.settings host r .invokeNthRestart).run =
        (s.alone reply { id, program := q }
          (Action.invokeRestart s.settings number index).run).map fun (result, s, t) =>
            (result.map Outcome.unwound, s, t) := by
    have read : Action.ofCommand s.settings host r .invokeNthRestart =
        Outcome.unwound <$> Action.invokeRestart s.settings number index := by
      rw [Action.ofCommand, Action.invokeNthRestart, isLevel, isIndex]
      rfl
    rw [read]
    simp
  unfold afterRestart Program.serve
  cases active : s.debugger.level? number with
  | none =>
    have absent := Debugger.resolve_of_level?_eq_none active index
    have refused : s.alone reply { id, program := q }
        (Action.invokeRestart s.settings number index).run =
          some (.error (.malformed s!"no debugger level {number} is active"), s,
            { id, program := q }) := by
      refine alone_then (alone_perform (by rw [pass_resolve, absent])) ?_
      exact alone_throw
    rw [← message_inactive]
    simp [command, refused, Except.map, Program.conclude, Program.finish]
  | some level =>
    have restarts : level.restartAt? index = some .restart → s.relayLock = {} := by
      simpa [active] using free
    simp [command, alone_invokeRestart active restarts, Except.map, Program.conclude,
      Program.finish, Outcome.unwound, alone_emitAll, send, sendAll]

end Steps

/-! ### What happens -/

namespace System

variable {sys : System} {payload : String} {r : Request} {number index : Nat}

theorem afterRestart_relayLock (s : Session) (id : RequestId) (number index : Nat) :
    (s.afterRestart reply id number index).relayLock = s.relayLock := by
  unfold Session.afterRestart
  split <;> rfl

/-- A task that has nothing of the gate and takes no part in the lock has nothing to give back. -/
theorem leave_eq_self {s : Session} {id : TaskId} {q : Program Unit}
    (outside : ¬ s.relayLock.Involves id) : s.leave { id, program := q } = s := by
  simp [Session.leave, Place.leave, Lock.leave_eq_self outside]

/-- A lock that nobody holds is as good as new. -/
theorem RelayInOrder.eq_new (ordered : sys.RelayInOrder)
    (free : sys.session.relayLock.holder = none) : sys.session.relayLock = {} := by
  have unwanted : sys.session.relayLock.waiting = [] := ordered.fair free
  have parts : sys.session.relayLock =
      ⟨sys.session.relayLock.holder, sys.session.relayLock.waiting⟩ := rfl
  rw [parts, free, unwanted]

/-- **A restart answers everyone, in order, whatever fails.** A request that leaves debugger level
`number` by the restart at `index`, while no other task goes on, runs to its end and has then made
of the session what `Session.afterRestart` says; it cannot run in another way. This holds for every
stack of levels and for every reply of the interpreter. Only a restart of the interpreter needs the
right to take output, for dropping what is left of it. -/
theorem restart_answers_everyone (numbered : sys.WellNumbered) (ordered : sys.RelayInOrder)
    (serves : Delivery.ofPayload payload = .serve .invokeNthRestart r)
    (isLevel : r.countArg 0 = .ok number) (isIndex : r.countArg 1 = .ok index)
    (free : (sys.session.debugger.level? number).bind (·.restartAt? index) = some .restart →
      sys.session.relayLock.holder = none)
    (reply : (c : Call) → c.Answer) :
    ∃ ls, (sys.deliver payload).Completes reply sys.nextTask ls
      { sys with
        session := sys.session.afterRestart reply r.id number index
        nextTask := sys.nextTask + 1 } := by
  let program := Program.serve sys.session.settings sys.session.host .invokeNthRestart r
  let task : Task := { id := sys.nextTask, program := .done () }
  let next : System := { sys with nextTask := sys.nextTask + 1 }
  have arrives : sys.deliver payload =
      next.between sys.tasks [] (sys.session.settle task program) := by
    have settled : sys.session.settle task program =
        (sys.session, some { id := sys.nextTask, program }) := rfl
    simp [deliver, serves, Command.needsGate, settled, spawn, between, next, program]
  have numbered' : (next.between sys.tasks [] (sys.session, some task)).WellNumbered := by
    have spawned : (sys.spawn (.done ())).WellNumbered := numbered.spawn
    simpa [between, spawn] using spawned
  have ran : sys.session.alone reply task program =
      some ((), sys.session.afterRestart reply r.id number index, task) :=
    Session.alone_serve isLevel isIndex fun restarts => ordered.eq_new (free restarts)
  have gone : (sys.session.afterRestart reply r.id number index).leave task =
      sys.session.afterRestart reply r.id number index := by
    refine leave_eq_self ?_
    rw [afterRestart_relayLock]
    exact fun involved => absurd (ordered.known _ involved) (Nat.lt_irrefl _)
  obtain ⟨ls, completes⟩ := completes_alone program (.done ()) numbered' ran
  rw [gone] at completes
  refine ⟨ls, arrives ▸ ?_⟩
  simpa [between] using completes

/-- Three levels, the second of which is fatal: it is left by the restart that it offers, but the
interpreter cannot be stopped. -/
theorem restart_answers_everyone_in_middle :
    let level (id : RequestId) (message : String) (fatal : Bool) : Level := ⟨id, message, [], fatal⟩
    let sys : System := { session := {
      debugger := ⟨[level 1 "e1 in (f)" false, level 2 "e2" true, level 3 "e3;;euslime;; x" false]⟩
      relay := ⟨[⟨"left", false⟩], true⟩ } }
    let reply : (c : Call) → c.Answer
      | .command .. => .ok (.list [.str "USER", .str "irteusgl"])
      | _ => .error (.process "gone")
    ∃ ls sys', (sys.deliver "(:emacs-rex (swank:invoke-nth-restart-for-emacs 2 0) nil t 9)").Completes
        reply 0 ls sys' ∧
      sys'.session.outbox =
        [.event (.debugReturn 3), .result (.abort (some "e3")) 3, .event (.debugReturn 2),
         .result (.abort (some "NIL")) 9, .event (.newPackage "USER" "irteusgl"),
         .result (.abort (some "e2")) 2, .event (.debugReturn 1), .result (.abort (some "e1")) 1] ∧
      sys'.session.debugger.levels = [] ∧ sys'.session.relay.queue = [] ∧
      sys'.session.asked = [.call .stop, .call (.command promptCommand .repl)] := by
  intro level sys reply
  have serves : Delivery.ofPayload "(:emacs-rex (swank:invoke-nth-restart-for-emacs 2 0) nil t 9)" =
      .serve .invokeNthRestart
        ⟨"swank:invoke-nth-restart-for-emacs", [.int 2, .int 0], none, .t, 9⟩ := by
    decide +kernel
  have numbered : sys.WellNumbered := ⟨.nil, fun t mem => absurd mem List.not_mem_nil⟩
  have ordered : sys.RelayInOrder := by
    refine ⟨fun _ => rfl, ?_⟩
    rintro p (holder | waits)
    · cases holder
    · cases waits
  obtain ⟨ls, completes⟩ := restart_answers_everyone numbered ordered serves rfl rfl
    (fun _ => rfl) reply
  refine ⟨ls, _, completes, ?_, rfl, rfl, rfl⟩
  decide +kernel

end System

end LispBridge
