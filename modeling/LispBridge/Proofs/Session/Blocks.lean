import LispBridge.Proofs.Session.History
import LispBridge.Session.Evaluation

/-!
What the tasks of a session send.

* `responses`, `consoleOf`: the messages of a history, and those that show something in the console.
* `Block`: what a request shows in the console in its turn at the gate.
* `Complete`: a turn from admission to release. The console output of a request is one block, and
  its result or its debugger level comes last.
-/

namespace LispBridge

/-- Whether a message shows something in the console: output, or a marker of an evaluation. -/
def Response.isConsole : Response → Bool
  | .event .readString | .event .readAborted | .event (.writeString ..) => true
  | _ => false

def Entry.response? : Entry → Option Response
  | .sent _ r => some r
  | _ => none

/-- The messages among what is seen. -/
def responses (es : List Entry) : List Response :=
  es.filterMap Entry.response?

/-- Messages of a task, as they are seen. -/
def sentBy (id : TaskId) (rs : List Response) : List Entry :=
  rs.map (.sent (some id))

@[simp] theorem sentBy_nil (id : TaskId) : sentBy id [] = [] := rfl

theorem sentBy_append (id : TaskId) (rs rs' : List Response) :
    sentBy id (rs ++ rs') = sentBy id rs ++ sentBy id rs' :=
  List.map_append

theorem mem_sentBy {id : TaskId} {r : Response} {rs : List Response} :
    .sent (some id) r ∈ sentBy id rs ↔ r ∈ rs := by
  simp [sentBy]

@[simp] theorem responses_nil : responses [] = [] := rfl

@[simp] theorem responses_append (es es' : List Entry) :
    responses (es ++ es') = responses es ++ responses es' :=
  List.filterMap_append

@[simp] theorem responses_sentBy (id : TaskId) (rs : List Response) :
    responses (sentBy id rs) = rs := by
  simp [responses, sentBy, List.filterMap_map, Function.comp_def, Entry.response?]

@[simp] theorem responses_answered (id : TaskId) (c : Call) (a : c.Answer) (es : List Entry) :
    responses (.answered id c a :: es) = responses es := rfl

/-- An evaluation between its markers, with the output that was relayed meanwhile. -/
def marked (relayed : List Chunk) : List Response :=
  .event .readString :: relayed.map Chunk.response ++ [.event .readAborted]

/-- The output that belongs to the result of an evaluation. -/
def resultOutput : Except Failure (List Chunk) → List Response
  | .ok chunks => chunks.map Chunk.response
  | .error _ => []

/-- The notices of the forms that a compilation loaded. -/
def loadedForms (forms : List Datum) : Except Failure (List Chunk) → List Response
  | .ok _ => forms.map Action.loadedNotice
  | .error _ => []

/-- The notice that a file is being loaded. -/
def loadingNotice (file : String) : Response :=
  .event (.writeString s!"Loading file: {file} ...\n" false)

/-- The notice of how the loading of a file ended. -/
def loadEnd : Except Failure Datum → List Response
  | .ok _ => [.event (.writeString "Loaded.\n" false)]
  | .error (.abort (some message)) =>
    [.event (.writeString s!"; Evaluation aborted on {message}\n" true)]
  | .error _ => []

/-- What a request shows in the console in its turn, given what is seen of its task. -/
inductive Block (id : TaskId) (log : List Entry) : Command → Request → List Response → Prop where
  | evaluation {c : Command} {r : Request} {code : String} {a : (Call.eval code).Answer}
      (relayed : List Chunk) :
      c ∈ [.interactiveEval, .interactiveEvalRegion, .listenerEval, .pprintEval] →
      r.strArg 0 = .ok code → .answered id (.eval code) a ∈ log →
      Block id log c r (marked relayed ++ resultOutput a)
  | compilation {c : Command} {r : Request} {source : String} {forms : List Datum}
      {a : (Call.eval (Action.prognCommand source)).Answer} (relayed : List Chunk) :
      c ∈ [.compileString, .compileNotes] → r.strArg 0 = .ok source →
      Datum.readAll source = .ok forms →
      .answered id (.eval (Action.prognCommand source)) a ∈ log →
      Block id log c r (marked relayed ++ resultOutput a ++ loadedForms forms a)
  | load {r : Request} {file : String}
      {a : (Call.command (Action.loadCommand file) .repl).Answer} (relayed : List Chunk) :
      r.strArg 0 = .ok file → .answered id (.command (Action.loadCommand file) .repl) a ∈ log →
      Block id log .loadFile r
        (loadingNotice file :: relayed.map Chunk.response ++ loadEnd a)

/-- What was answered to a task stays answered. -/
theorem Block.append {id : TaskId} {log : List Entry} {c : Command} {r : Request}
    {rs : List Response} (block : Block id log c r rs) (more : List Entry) :
    Block id (log ++ more) c r rs := by
  cases block with
  | evaluation relayed evaluates isCode answered =>
    exact .evaluation relayed evaluates isCode (List.mem_append_left more answered)
  | compilation relayed compiles isSource parsed answered =>
    exact .compilation relayed compiles isSource parsed (List.mem_append_left more answered)
  | load relayed isFile answered => exact .load relayed isFile (List.mem_append_left more answered)

/-- The refreshed prompt, if there is one. -/
def Refreshed (rs : List Response) : Prop :=
  rs = [] ∨ ∃ p : Package, rs = [.event p.event]

/-- The end of a request: its result, or the debugger level that owes it. -/
inductive Conclusion (id : RequestId) : List Response → Prop where
  | result (verdict : Verdict) : Conclusion id [.result verdict id]
  | level (number : Nat) {l : Level} : l.id = id →
      Conclusion id [.event (l.debugEvent number), .event (.debugActivate number)]

/-- What is shown in the console. -/
def consoleOf (es : List Entry) : List Response :=
  (responses es).filter Response.isConsole

/-- What is seen of a task in its turn, from its admission up to the release of the gate: its block,
then the prompt, and last its conclusion. -/
def Complete (id : TaskId) (work : Delivery) (log : List Entry) : Prop :=
  match work with
  | .serve c r => ∃ prompt conclusion, responses log = consoleOf log ++ prompt ++ conclusion ∧
      Block id log c r (consoleOf log) ∧ Refreshed prompt ∧ Conclusion r.id conclusion
  | .interrupt true => Refreshed (responses log)
  | _ => False

@[simp] theorem consoleOf_append (es es' : List Entry) :
    consoleOf (es ++ es') = consoleOf es ++ consoleOf es' := by
  simp [consoleOf]

theorem isConsole_chunks (chunks : List Chunk) :
    ∀ m ∈ chunks.map Chunk.response, m.isConsole = true := by
  simp [Chunk.response, Response.isConsole]

theorem isConsole_marked (relayed : List Chunk) : ∀ m ∈ marked relayed, m.isConsole = true := by
  simp [marked, or_imp, forall_and, Chunk.response, Response.isConsole]

theorem isConsole_resultOutput (a : Except Failure (List Chunk)) :
    ∀ m ∈ resultOutput a, m.isConsole = true := by
  cases a with
  | error e => simp [resultOutput]
  | ok chunks => exact isConsole_chunks chunks

theorem Block.isConsole {id : TaskId} {log : List Entry} {c : Command} {r : Request}
    {rs : List Response} (block : Block id log c r rs) : ∀ m ∈ rs, m.isConsole = true := by
  cases block with
  | @evaluation _ _ _ a relayed =>
    exact List.forall_mem_append.mpr ⟨isConsole_marked relayed, isConsole_resultOutput a⟩
  | @compilation _ _ _ forms a relayed =>
    refine List.forall_mem_append.mpr
      ⟨List.forall_mem_append.mpr ⟨isConsole_marked relayed, isConsole_resultOutput a⟩, ?_⟩
    cases a <;> simp [loadedForms, Action.loadedNotice, Response.isConsole]
  | @load _ _ a relayed =>
    refine List.forall_mem_append.mpr
      ⟨List.forall_mem_cons.mpr ⟨rfl, isConsole_chunks relayed⟩, ?_⟩
    rcases a with (_ | _ | _ | _ | (_ | message) | _ | _ | _) | value <;>
      simp [loadEnd, Response.isConsole]

theorem Refreshed.isConsole {rs : List Response} (refreshed : Refreshed rs) :
    ∀ m ∈ rs, m.isConsole = false := by
  obtain rfl | ⟨p, rfl⟩ := refreshed <;> simp [Package.event, Response.isConsole]

theorem Conclusion.isConsole {id : RequestId} {rs : List Response} (ends : Conclusion id rs) :
    ∀ m ∈ rs, m.isConsole = false := by
  cases ends <;> simp [Level.debugEvent, Response.isConsole]

/-- A block that is followed by a prompt and a conclusion is what the console shows. -/
theorem Complete.of_block {id : TaskId} {log : List Entry} {c : Command} {r : Request}
    {block prompt conclusion : List Response}
    (split : responses log = block ++ prompt ++ conclusion) (shows : Block id log c r block)
    (refreshed : Refreshed prompt) (ends : Conclusion r.id conclusion) :
    Complete id (.serve c r) log := by
  have console : consoleOf log = block := by
    have kept := List.filter_eq_self.mpr shows.isConsole
    have noPrompt : prompt.filter Response.isConsole = [] := by
      simpa [List.filter_eq_nil_iff] using refreshed.isConsole
    have noConclusion : conclusion.filter Response.isConsole = [] := by
      simpa [List.filter_eq_nil_iff] using ends.isConsole
    rw [consoleOf, split, List.filter_append, List.filter_append, kept, noPrompt, noConclusion,
      List.append_nil, List.append_nil]
  exact ⟨prompt, conclusion, console ▸ split, console ▸ shows, refreshed, ends⟩

end LispBridge
