import LispBridge.Interpreter.Process
import LispBridge.Proofs.Datum.LispStyle
import LispBridge.Proofs.Message.Arguments
import LispBridge.Proofs.Program.Calls
import LispBridge.Session.Request

/-!
Strings of the editor inside commands to the interpreter.

* `Request.statement?`: the form that a request with a string argument puts to the interpreter.
* `onString_eq` and the others: each command is the text of such a form in Lisp style.
* `strings_stay_literals`: so it is read as this form, whatever the string is, and the line that
  carries the command to the process is read as the command in a literal.
-/

namespace LispBridge

open Datum

/-! ### What requests say -/

/-- The symbol that stands for `nil` in every package. -/
def lispNil : Datum :=
  .symbol "lisp:nil"

/-- A form in the quotes of the interpreter. -/
def quoted (d : Datum) : Datum :=
  .list [.symbol "lisp:quote", d]

/-- The channel and the form that a request puts to the interpreter on behalf of a string. -/
def Request.statement? (r : Request) (s : String) : Command → Option (Channel × Datum)
  | .loadFile => some (.repl, .list [.symbol "lisp:load", .str s])
  | .operatorArglist =>
    some (.internal, .list [.symbol "slime::autodoc", .str s, lispNil, quoted lispNil])
  | .completions =>
    some (.internal,
      if s.startsWith ":" then .list [.symbol "slime::slime-find-keyword", .str s, quoted lispNil]
      else .list [.symbol "slime::slime-find-symbol", .str s])
  | .simpleCompletions => some (.internal, .list [.symbol "slime::slime-find-symbol", .str s])
  | .keywordCompletions =>
    some (.internal, .list [.symbol "slime::slime-find-keyword", .str s,
      quoted (Action.keywordForm (r.optArg? 1)).inLisp])
  | .characterCompletions => some (.internal, .list [.symbol "slime::slime-find-character", .str s])
  | .describeSymbol | .describeFunction | .describeDefinition =>
    some (.internal, .list [.symbol "slime::slime-describe-symbol", .str (Text.trim s)])
  | .aproposList =>
    some (.internal, .list [.symbol "slime::slime-apropos-list", .str s,
      (((r.optArg? 3).map Datum.unquote).getD .nil).inLisp])
  | .setPackage => some (.repl, .list [.symbol "slime::set-package", .str s])
  | .setDefaultDirectory =>
    some (.internal, .list [.symbol "lisp:progn", .list [.symbol "lisp:cd", .str s],
      .list [.symbol "lisp:pwd"]])
  | _ => none

/-! ### Commands are printed forms -/

theorem eq_lisp_of_chars {text : String} {d : Datum} (same : text.toList = d.chars .lisp) :
    text = d.lisp :=
  String.toList_inj.mp same

theorem toList_lisp (d : Datum) : d.lisp.toList = d.chars .lisp :=
  rfl

theorem onString_eq (function argument : String) :
    QueryText.onString function argument =
      (Datum.list [.symbol ("slime::" ++ function), .str argument]).lisp := by
  refine eq_lisp_of_chars ?_
  show ("(slime::" ++ function ++ " \"" ++ escape argument ++ "\")").toList = _
  simp [chars_list_cons, itemChars_cons, chars_str, toList_escape]

theorem codeForm_eq (operator code : String) :
    codeForm operator code "" = (Datum.list [.symbol ("slime::" ++ operator), .str code]).lisp := by
  refine eq_lisp_of_chars ?_
  show ("(slime::" ++ operator ++ " \"" ++ escape code ++ "\"" ++ "" ++ ")").toList = _
  simp [chars_list_cons, itemChars_cons, chars_str, toList_escape]

theorem codeForm_channel_eq (operator code channel : String) :
    codeForm operator code (" " ++ channel) =
      (Datum.list [.symbol ("slime::" ++ operator), .str code, .symbol channel]).lisp := by
  refine eq_lisp_of_chars ?_
  show ("(slime::" ++ operator ++ " \"" ++ escape code ++ "\"" ++ (" " ++ channel) ++
    ")").toList = _
  simp [chars_list_cons, itemChars_cons, chars_str, toList_escape]

theorem loadCommand_eq (file : String) :
    Action.loadCommand file = (Datum.list [.symbol "lisp:load", .str file]).lisp := by
  refine eq_lisp_of_chars ?_
  show ("(lisp:load \"" ++ escape file ++ "\")").toList = _
  simp [chars_list_cons, itemChars_cons, chars_str, toList_escape]

theorem autodoc_eq (function : String) (form : Datum) :
    QueryText.autodoc function none form =
      (Datum.list [.symbol "slime::autodoc", .str function, .nil, quoted form]).lisp := by
  refine eq_lisp_of_chars ?_
  show ("(slime::autodoc \"" ++ escape function ++ "\" " ++ lisp .nil ++ " (lisp:quote " ++
    form.lisp ++ "))").toList = _
  simp [quoted, chars_list_cons, itemChars_cons, chars_str, toList_escape, toList_lisp]

theorem findKeyword_eq (start : String) (form : Datum) :
    QueryText.findKeyword start form =
      (Datum.list [.symbol "slime::slime-find-keyword", .str start, quoted form]).lisp := by
  refine eq_lisp_of_chars ?_
  show ("(slime::slime-find-keyword \"" ++ escape start ++ "\" (lisp:quote " ++ form.lisp ++
    "))").toList = _
  simp [quoted, chars_list_cons, itemChars_cons, chars_str, toList_escape, toList_lisp]

theorem apropos_eq (key : String) (package : Datum) :
    QueryText.apropos key package =
      (Datum.list [.symbol "slime::slime-apropos-list", .str key, package]).lisp := by
  refine eq_lisp_of_chars ?_
  show ("(slime::slime-apropos-list \"" ++ escape key ++ "\" " ++ package.lisp ++ ")").toList = _
  simp [chars_list_cons, itemChars_cons, chars_str, toList_escape, toList_lisp]

theorem changeDirectory_eq (directory : String) :
    QueryText.changeDirectory directory =
      (Datum.list [.symbol "lisp:progn", .list [.symbol "lisp:cd", .str directory],
        .list [.symbol "lisp:pwd"]]).lisp := by
  refine eq_lisp_of_chars ?_
  show ("(lisp:progn (lisp:cd \"" ++ escape directory ++ "\") (lisp:pwd))").toList = _
  simp [chars_list_cons, itemChars_cons, chars_str, toList_escape]

/-! ### These forms are read back -/

section Reading

variable {k : Nat}

/-- The application of a function to sturdy arguments. -/
theorem sturdy_application {function : String} {arguments : List Datum}
    (plain : IsPlainName function) (few : k < maxDepth)
    (each : ∀ d ∈ arguments, Sturdy (k + 1) d) : Sturdy k (.list (.symbol function :: arguments)) :=
  .list few (List.cons_ne_nil _ _) (List.forall_mem_cons.mpr ⟨sturdy_plainName plain _, each⟩)

theorem sturdy_quoted {d : Datum} (few : k < maxDepth) (sturdy : Sturdy (k + 1) d) :
    Sturdy k (quoted d) :=
  sturdy_application ⟨by decide, rfl⟩ few (List.forall_mem_singleton.mpr sturdy)

/-- The text of a function applied to a string and to other arguments is read as this. -/
theorem read_application {function : String} (plain : IsPlainName function) (s : String)
    {arguments : List Datum} (each : ∀ d ∈ arguments, Sturdy 1 d) :
    read (Datum.list (.symbol function :: .str s :: arguments)).lisp =
      .ok (.list (.symbol function :: .str s :: arguments.map inLisp)) := by
  rw [read_lisp (sturdy_application plain (by decide) (List.forall_mem_cons.mpr ⟨.str s, each⟩)),
    inLisp_list_cons]
  rfl

theorem read_onString {function : String} (plain : IsPlainName ("slime::" ++ function))
    (argument : String) :
    read (QueryText.onString function argument) =
      .ok (.list [.symbol ("slime::" ++ function), .str argument]) := by
  rw [onString_eq]
  exact read_application plain argument (by simp)

theorem inLisp_quoted (d : Datum) : (quoted d).inLisp = quoted d.inLisp := by
  rw [quoted, inLisp_list_cons]
  rfl

theorem read_findKeyword (start : String) {form : Datum} (sturdy : Sturdy 2 form) :
    read (QueryText.findKeyword start form) =
      .ok (.list [.symbol "slime::slime-find-keyword", .str start, quoted form.inLisp]) := by
  have each : ∀ d ∈ [quoted form], Sturdy 1 d :=
    List.forall_mem_singleton.mpr (sturdy_quoted (by decide) sturdy)
  rw [findKeyword_eq, read_application ⟨by decide, rfl⟩ start each, List.map_singleton,
    inLisp_quoted]

theorem read_autodoc (function : String) :
    read (QueryText.autodoc function none .nil) =
      .ok (.list [.symbol "slime::autodoc", .str function, lispNil, quoted lispNil]) := by
  have each : ∀ d ∈ [.nil, quoted .nil], Sturdy 1 d :=
    List.forall_mem_cons.mpr ⟨.nil, List.forall_mem_singleton.mpr (sturdy_quoted (by decide) .nil)⟩
  rw [autodoc_eq, read_application ⟨by decide, rfl⟩ function each]
  rfl

theorem read_apropos (key : String) {package : Datum} (sturdy : Sturdy 1 package) :
    read (QueryText.apropos key package) =
      .ok (.list [.symbol "slime::slime-apropos-list", .str key, package.inLisp]) := by
  rw [apropos_eq, read_application ⟨by decide, rfl⟩ key (List.forall_mem_singleton.mpr sturdy)]
  rfl

theorem read_loadCommand (file : String) :
    read (Action.loadCommand file) = .ok (.list [.symbol "lisp:load", .str file]) := by
  rw [loadCommand_eq]
  exact read_application ⟨by decide, rfl⟩ file (by simp)

theorem read_changeDirectory (directory : String) :
    read (QueryText.changeDirectory directory) =
      .ok (.list [.symbol "lisp:progn", .list [.symbol "lisp:cd", .str directory],
        .list [.symbol "lisp:pwd"]]) := by
  have change : Sturdy 1 (.list [.symbol "lisp:cd", .str directory]) :=
    sturdy_application ⟨by decide, rfl⟩ (by decide) (List.forall_mem_singleton.mpr (.str directory))
  have show' : Sturdy 1 (.list [.symbol "lisp:pwd"]) :=
    sturdy_application ⟨by decide, rfl⟩ (by decide) (by simp)
  have each := List.forall_mem_cons.mpr ⟨change, List.forall_mem_singleton.mpr show'⟩
  rw [changeDirectory_eq, read_lisp (sturdy_application ⟨by decide, rfl⟩ (by decide) each)]
  rfl

end Reading

/-! ### Values of the editor inside them -/

section Arguments

variable {payload : String} {r : Request}

theorem mem_args_of_optArg? {i : Nat} {d : Datum} (given : r.optArg? i = some d) : d ∈ r.args := by
  rw [Request.optArg?, Option.filter_eq_some_iff] at given
  exact List.mem_of_getElem? given.1

theorem sturdy_keywordForm (received : Inbound.ofPayload payload = .ok (.request r)) (i : Nat) :
    Sturdy 2 (Action.keywordForm (r.optArg? i)) := by
  unfold Action.keywordForm
  split
  · exact .nil
  · next scope found =>
    obtain ⟨form, given, found⟩ := Option.bind_eq_some_iff.mp found
    have sturdy := sturdy_of_payload received form (mem_args_of_optArg? given)
    have others : ∀ x ∈ scope.others, Sturdy 3 x := fun x mem =>
      sturdy.unquote.scope found x (List.mem_of_mem_eraseIdx mem)
    refine sturdy_list (by decide) fun x mem => others x ?_
    split at mem
    · exact List.mem_of_mem_dropLast mem
    · exact mem

theorem sturdy_package (received : Inbound.ofPayload payload = .ok (.request r)) (i : Nat) :
    Sturdy 1 (((r.optArg? i).map Datum.unquote).getD .nil) := by
  cases given : r.optArg? i with
  | none => exact .nil
  | some package =>
    have sturdy := sturdy_of_payload received package (mem_args_of_optArg? given)
    exact sturdy.unquote.mono (by decide)

end Arguments

/-! ### What handlers call for -/

namespace Action

variable {r : Request} {s : String}

theorem callsFor_loadFile (given : r.strArg 0 = .ok s) :
    (loadFile r).CallsFor [.command (loadCommand s) .repl] := by
  rw [loadFile, ofExcept_ok_bind given]
  refine callsFor_perform_bind fun _ => ?_
  refine callsFor_perform_bind fun _ => ?_
  refine callsFor_attempt_bind (Program.callsFor_drive (.command (loadCommand s) .repl))
    fun answer => ?_
  rcases answer with (_ | _ | _ | _ | (_ | message) | _ | _ | _) | value
  all_goals
    first
    | exact callsFor_pure _
    | exact callsFor_throw _
    | exact callsFor_perform_bind fun _ => callsFor_pure _

theorem callsFor_operatorArglist (given : r.strArg 0 = .ok s) :
    (operatorArglist r).CallsFor [.command (QueryText.autodoc s none .nil) .internal] := by
  rw [operatorArglist, ofExcept_ok_bind given, askArgumentList]
  refine callsFor_then ?_ fun known => ?_
  · exact callsFor_attempt_bind (callsFor_askInternal _) fun _ => callsFor_pure _
  · cases known with
    | none => exact callsFor_pure _
    | some known => exact callsFor_pure _

theorem callsFor_setPackage (given : r.strArg 0 = .ok s) :
    (setPackage r).CallsFor [.command (QueryText.setPackage s) .repl] := by
  rw [setPackage, ofExcept_ok_bind given]
  refine callsFor_then (callsFor_askRepl _) fun value => ?_
  cases Package.ofDatum? value with
  | none => exact callsFor_pure _
  | some p => exact callsFor_perform_bind fun _ => callsFor_pure _

/-- A query that answers with what the interpreter says. -/
theorem callsFor_query {a : Action Outcome} {text : String}
    (asks : a = Outcome.ok <$> askInternal text) : a.CallsFor [.command text .internal] := by
  rw [asks]
  exact callsFor_map (callsFor_askInternal text) _

end Action

/-! ### Strings stay literals -/

/-- The command of a request that embeds a string is read as the statement of the request. -/
theorem reads_as_statement {payload : String} {r : Request} {s : String} {command : Command}
    {channel : Channel} {form : Datum} (received : Inbound.ofPayload payload = .ok (.request r))
    (given : r.strArg 0 = .ok s) (stated : r.statement? s command = some (channel, form))
    (settings : Settings) (host : Host) :
    ∃ text, (Action.ofCommand settings host r command).CallsFor [.command text channel] ∧
      read text = .ok form := by
  cases command with
  | loadFile =>
    cases stated
    exact ⟨_, Action.callsFor_loadFile given, read_loadCommand s⟩
  | operatorArglist =>
    cases stated
    exact ⟨_, Action.callsFor_operatorArglist given, read_autodoc s⟩
  | completions =>
    have asks : Action.completions r =
        if s.startsWith ":" then Action.completeKeyword s none else Action.completeSymbol s := by
      rw [Action.completions, Action.ofExcept_ok_bind given]
    cases stated
    rw [Action.ofCommand, asks]
    split
    · exact ⟨_, Action.callsFor_query rfl, read_findKeyword s .nil⟩
    · exact ⟨_, Action.callsFor_query rfl, read_onString ⟨by decide, rfl⟩ s⟩
  | simpleCompletions =>
    cases stated
    exact ⟨_, Action.callsFor_query (Action.ofExcept_ok_bind given _),
      read_onString ⟨by decide, rfl⟩ s⟩
  | keywordCompletions =>
    cases stated
    exact ⟨_, Action.callsFor_query (Action.ofExcept_ok_bind given _),
      read_findKeyword s (sturdy_keywordForm received 1)⟩
  | characterCompletions =>
    cases stated
    exact ⟨_, Action.callsFor_query (Action.ofExcept_ok_bind given _),
      read_onString ⟨by decide, rfl⟩ s⟩
  | describeSymbol | describeFunction | describeDefinition =>
    cases stated
    exact ⟨_, Action.callsFor_query (Action.ofExcept_ok_bind given _),
      read_onString ⟨by decide, rfl⟩ (Text.trim s)⟩
  | aproposList =>
    cases stated
    exact ⟨_, Action.callsFor_query (Action.ofExcept_ok_bind given _),
      read_apropos s (sturdy_package received 3)⟩
  | setPackage =>
    cases stated
    exact ⟨_, Action.callsFor_setPackage given, read_onString ⟨by decide, rfl⟩ s⟩
  | setDefaultDirectory =>
    cases stated
    exact ⟨_, Action.callsFor_query (Action.ofExcept_ok_bind given _), read_changeDirectory s⟩
  | _ => cases stated

/-- The keyword by which a line names a channel. -/
def Channel.keyword : Channel → String
  | .internal => ":internal"
  | .repl => ":repl"

/-- The line that carries a command is read as the command in a literal. -/
theorem read_commandLine (text : String) (channel : Channel) :
    ∃ line, (Call.command text channel).form? = some line ∧
      read line =
        .ok (.list [.symbol "slime::euslime-exec", .str text, .symbol channel.keyword]) := by
  have line (keyword : String) (plain : IsPlainName keyword) :
      read (codeForm "euslime-exec" text (" " ++ keyword)) =
        .ok (.list [.symbol "slime::euslime-exec", .str text, .symbol keyword]) := by
    rw [codeForm_channel_eq]
    exact read_application ⟨by decide, rfl⟩ text
      (List.forall_mem_singleton.mpr (sturdy_plainName plain 1))
  cases channel with
  | internal => exact ⟨_, rfl, line ":internal" ⟨by decide, rfl⟩⟩
  | repl => exact ⟨_, rfl, line ":repl" ⟨by decide, rfl⟩⟩

/-- The line that carries code to evaluate is read as the code in a literal. -/
theorem read_evalLine (code : String) :
    ∃ line, (Call.eval code).form? = some line ∧
      read line = .ok (.list [.symbol "slime::euslime-eval", .str code]) := by
  refine ⟨_, rfl, ?_⟩
  rw [codeForm_eq]
  exact read_application ⟨by decide, rfl⟩ code (by simp)

/-- **Strings of the editor cannot leave their literals**, on either level of quoting. A request
that embeds a string calls for exactly one command, which is read as the statement of the request,
with the string in its place. Whatever the command or the code is, the line that carries it to the
process is read as one list that holds exactly this text as a string. -/
theorem strings_stay_literals :
    (∀ (payload : String) (r : Request) (s : String) (command : Command) (channel : Channel)
        (form : Datum) (settings : Settings) (host : Host),
      Inbound.ofPayload payload = .ok (.request r) → r.strArg 0 = .ok s →
      r.statement? s command = some (channel, form) →
        ∃ text, (Action.ofCommand settings host r command).CallsFor [.command text channel] ∧
          read text = .ok form) ∧
      (∀ (text : String) (channel : Channel), ∃ line,
        (Call.command text channel).form? = some line ∧
          read line =
            .ok (.list [.symbol "slime::euslime-exec", .str text, .symbol channel.keyword])) ∧
      ∀ code : String, ∃ line, (Call.eval code).form? = some line ∧
        read line = .ok (.list [.symbol "slime::euslime-eval", .str code]) := by
  refine ⟨?_, read_commandLine, read_evalLine⟩
  intro payload r s command channel form settings host received given stated
  exact reads_as_statement received given stated settings host

/-- A file whose name has a quote, a line break and a backslash at its end is loaded under this
name, and keywords are completed in a form with `nil` in it. -/
theorem strings_stay_literals_of_samples :
    let file := "a\" (b)\n\\"
    let load : Request :=
      { tag := "swank:load-file", package := some "USER", thread := .t, id := 1
        args := [.str file] }
    let complete : Request :=
      { tag := "swank:completions-for-keyword", package := some "USER", thread := .t, id := 2
        args := [.str ":\\", .list [.symbol "quote",
          .list [.symbol "f", .nil, .symbol cursorMark]]] }
    (Inbound.ofPayload "(:emacs-rex (swank:load-file \"a\\\" (b)\n\\\\\") \"USER\" t 1)" =
        .ok (.request load) ∧
      ∃ text, (Action.ofCommand {} {} load .loadFile).CallsFor [.command text .repl] ∧
        read text = .ok (.list [.symbol "lisp:load", .str file])) ∧
    (Inbound.ofPayload ("(:emacs-rex (swank:completions-for-keyword \":\\\\\" '(f nil " ++
        "swank::%cursor-marker%)) \"USER\" t 2)") = .ok (.request complete) ∧
      ∃ text, (Action.ofCommand {} {} complete .keywordCompletions).CallsFor
          [.command text .internal] ∧
        read text = .ok (.list [.symbol "slime::slime-find-keyword", .str ":\\",
          .list [.symbol "lisp:quote", .list [.symbol "f", .symbol "lisp:nil"]]])) := by
  intro file load complete
  have loads : Inbound.ofPayload "(:emacs-rex (swank:load-file \"a\\\" (b)\n\\\\\") \"USER\" t 1)" =
      .ok (.request load) := by
    decide +kernel
  have completes : Inbound.ofPayload ("(:emacs-rex (swank:completions-for-keyword \":\\\\\" " ++
      "'(f nil swank::%cursor-marker%)) \"USER\" t 2)") = .ok (.request complete) := by
    decide +kernel
  exact ⟨⟨loads, strings_stay_literals.1 _ _ _ _ _ _ _ _ loads rfl rfl⟩,
    ⟨completes, strings_stay_literals.1 _ _ _ _ _ _ _ _ completes rfl rfl⟩⟩

end LispBridge
