import LispBridge.Datum.Basic
import LispBridge.Failure

/-!
The commands that a request may name, and the tags they are named by.
-/

namespace LispBridge

/-- A command of the editor. -/
inductive Command where
  -- Evaluation
  | interactiveEval | interactiveEvalRegion | listenerEval | pprintEval
  | compileString | compileNotes | compileFile | compileFileIfNeeded | loadFile
  -- Queries
  | connectionInfo | createRepl | autodoc | operatorArglist
  | completions | simpleCompletions | fuzzyCompletions | keywordCompletions
  | characterCompletions
  | describeSymbol | describeFunction | describeDefinition | expand1
  | listAllPackageNames | aproposList | setPackage | defaultDirectory | setDefaultDirectory
  | clearReplVariables | backtrace
  -- Acknowledged without action
  | bufferFirstChange | swankRequire | initPresentations | completeForm
  | inspectCurrentCondition | sldbAbort | sldbOut | frameLocalsAndCatchTags | findDefinitions
  | clearReplResults
  -- Control of the session
  | invokeNthRestart | throwToToplevel | quitLisp
deriving DecidableEq, Repr

namespace Command

/-- Every tag with its command. The first tag of a command is its own, the others are aliases. -/
def table : List (String × Command) :=
  [("swank:interactive-eval", interactiveEval),
   ("swank:interactive-eval-region", interactiveEvalRegion),
   ("swank-repl:listener-eval", listenerEval),
   ("swank:listener-eval", listenerEval),
   ("swank:pprint-eval", pprintEval),
   ("swank:compile-string-for-emacs", compileString),
   ("swank:compile-notes-for-emacs", compileNotes),
   ("swank:compile-file-for-emacs", compileFile),
   ("swank:compile-file-if-needed", compileFileIfNeeded),
   ("swank:load-file", loadFile),
   ("swank:connection-info", connectionInfo),
   ("swank-repl:create-repl", createRepl),
   ("swank:create-repl", createRepl),
   ("swank:autodoc", autodoc),
   ("swank:operator-arglist", operatorArglist),
   ("swank:completions", completions),
   ("swank:simple-completions", simpleCompletions),
   ("swank:fuzzy-completions", fuzzyCompletions),
   ("swank:completions-for-keyword", keywordCompletions),
   ("swank:completions-for-character", characterCompletions),
   ("swank:describe-symbol", describeSymbol),
   ("swank:describe-function", describeFunction),
   ("swank:describe-definition-for-emacs", describeDefinition),
   ("swank:swank-expand-1", expand1),
   ("swank:swank-macroexpand-1", expand1),
   ("swank:list-all-package-names", listAllPackageNames),
   ("swank:apropos-list-for-emacs", aproposList),
   ("swank:set-package", setPackage),
   ("swank-repl:set-package", setPackage),
   ("swank:default-directory", defaultDirectory),
   ("swank:set-default-directory", setDefaultDirectory),
   ("swank-repl:clear-repl-variables", clearReplVariables),
   ("swank:backtrace", backtrace),
   ("swank:buffer-first-change", bufferFirstChange),
   ("swank:swank-require", swankRequire),
   ("swank:init-presentations", initPresentations),
   ("swank:complete-form", completeForm),
   ("swank:inspect-current-condition", inspectCurrentCondition),
   ("swank:sldb-abort", sldbAbort),
   ("swank:sldb-out", sldbOut),
   ("swank:frame-locals-and-catch-tags", frameLocalsAndCatchTags),
   ("swank:find-definitions-for-emacs", findDefinitions),
   ("swank-repl:clear-repl-results", clearReplResults),
   ("swank:clear-repl-results", clearReplResults),
   ("swank:invoke-nth-restart-for-emacs", invokeNthRestart),
   ("swank:throw-to-toplevel", throwToToplevel),
   ("swank:quit-lisp", quitLisp)]

/-- Every tag, aliases included. -/
def tags : List String :=
  table.map (·.1)

/-- The command that a tag names, in any case. -/
def ofTag (tag : String) : Except Failure Command :=
  match table.find? fun (known, _) => Datum.sameName known tag with
  | some (_, command) => .ok command
  | none => .error (.unknownCommand tag)

/-- A command's own tag. -/
def tag (c : Command) : String :=
  match table.find? fun (_, command) => command = c with
  | some (tag, _) => tag
  | none => ""

/-- Whether a command runs user code, so that it has to hold the gate. -/
def needsGate : Command → Bool
  | interactiveEval | interactiveEvalRegion | listenerEval | pprintEval
  | compileString | compileNotes | loadFile => true
  | _ => false

end Command

end LispBridge
