import RefManifest.Failure

/-!
# RefManifest.Report

What the user reads when a run fails. An error is a root cause under contexts; its report names
the failure, with a suggestion and details that fit the cause.
-/

namespace RefManifest

/-- A root cause under contexts, the outermost one first. -/
inductive Trouble where
  | failure (contexts : List String) (cause : Failure)
  | text (contexts : List String) (cause : String)
deriving Repr, DecidableEq

structure Report where
  failure : Failure
  suggestion : Option String
  details : Option String
deriving Repr, DecidableEq

namespace Report

def bare (f : Failure) : Report := ⟨f, none, none⟩

def suggestionFor : Failure → Option String
  | .referenceDirNotFound _ =>
    some "Pass the directory holding the reference templates with --reference-dir"
  | .directoryWalk _ _ | .templateRead _ _ =>
    some "Check file permissions inside the reference directory"
  | .unresolvableName _ _ _ =>
    some ("Add 'cluster-compare-part: <name>' and 'cluster-compare-component: <name>' comments " ++
      "to the template, or --exclude it")
  | .conflictingStatus _ _ =>
    some ("Keep either cluster-compare-component-required or " ++
      "cluster-compare-component-optional, not both")
  | .invalidExcludePattern _ _ =>
    some "Exclude patterns are globs relative to the reference directory, e.g. '**/*.md'"
  | .configParse _ _ => some "Supported keys are: exclude, exit-on-error, output, format"
  | .outputOutOfDate _ => some "Run 'ccmeta generate' and commit the regenerated manifest"
  | .directivePattern _ | .serialization _ _ | .outputWrite _ _ | .other _ => none

def detailsFor : Failure → Option String
  | .directoryWalk _ _ | .templateRead _ _ =>
    some "Every regular file under the reference directory is read as a template"
  | .unresolvableName _ _ _ =>
    some ("Names fall back to the directories between the reference directory and the " ++
      "template, never to directories above it")
  | .conflictingStatus _ _ =>
    some ("The component-level directive applies to the whole component; its templates must " ++
      "agree on it")
  | _ => none

def ofFailure (f : Failure) : Report := ⟨f, suggestionFor f, detailsFor f⟩

def numbered (start : Nat) : List String → String
  | [] => ""
  | cause :: rest => "\n  " ++ toString start ++ ": " ++ cause ++ numbered (start + 1) rest

/-- The outermost context goes in front of the details, unless it repeats the failure. An error
without a failure at its root is reported as text, with its causes numbered. -/
def ofTrouble : Trouble → Report
  | .failure contexts f =>
    let report := ofFailure f
    let outer := contexts.headD f.message
    if outer = f.message then report
    else
      match report.details with
      | some details => { report with details := some (outer ++ "\n" ++ details) }
      | none => { report with details := some outer }
  | .text contexts cause =>
    match contexts with
    | [] => bare (.other cause)
    | outer :: inner =>
      bare (.other (outer ++ "\n\nCaused by:" ++ numbered 1 (inner ++ [cause])))

def text (r : Report) : String :=
  r.failure.message ++
    (match r.details with
      | some d => "\nDetails: " ++ d
      | none => "") ++
    (match r.suggestion with
      | some s => "\nSuggestion: " ++ s
      | none => "")

/-- The lines that the user sees. -/
def lines (r : Report) : String :=
  "error: " ++ r.failure.message ++ "\n" ++
    (match r.details with
      | some d => "details: " ++ d ++ "\n"
      | none => "") ++
    (match r.suggestion with
      | some s => "suggestion: " ++ s ++ "\n"
      | none => "")

end Report
end RefManifest
