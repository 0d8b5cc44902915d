/-!
# RefManifest.Notice

What a run tells while it goes on. Log entries carry a level and the topic they belong to;
reports go to whoever asked for the run, and a fatal one is the last.
-/

namespace RefManifest

inductive Level where
  | error
  | warn
  | info
  | debug
  | trace
deriving Repr, DecidableEq

namespace Level

/-- How much is let through at this level: a filter at a level passes all ranks up to it. -/
def rank : Level → Nat
  | error => 1
  | warn => 2
  | info => 3
  | debug => 4
  | trace => 5

def label : Level → String
  | error => "ERROR"
  | warn => "WARN"
  | info => "INFO"
  | debug => "DEBUG"
  | trace => "TRACE"

end Level

/-- The part of the program that a log entry speaks for. -/
inductive Topic where
  | metadata
  | pattern
  | config
  | generate
  | check
deriving Repr, DecidableEq

/-- The name by which a log filter selects the topic. -/
def Topic.target : Topic → String
  | .metadata => "ccmeta::metadata"
  | .pattern => "ccmeta::pattern"
  | .config => "ccmeta::config"
  | .generate => "ccmeta::cli::generate"
  | .check => "ccmeta::cli::check"

inductive Notice where
  | log (level : Level) (topic : Topic) (message : String)
  | error (message : String)
  | fatal (message : String)
deriving Repr, DecidableEq

namespace Notice

def isReport : Notice → Bool
  | log _ _ _ => false
  | error _ => true
  | fatal _ => true

def level : Notice → Level
  | log l _ _ => l
  | error _ => .error
  | fatal _ => .error

def topic : Notice → Topic
  | log _ t _ => t
  | error _ => .metadata
  | fatal _ => .metadata

def message : Notice → String
  | log _ _ m => m
  | error m => m
  | fatal m => m

def error? : Notice → Option String
  | error m => some m
  | _ => none

def fatal? : Notice → Option String
  | fatal m => some m
  | _ => none

def errors (ns : List Notice) : List String := ns.filterMap error?

def fatals (ns : List Notice) : List String := ns.filterMap fatal?

end Notice

/-- A computation that tells notices and ends in a result or a failure. -/
@[ext]
structure Traced (ε α : Type) where
  notices : List Notice
  result : Except ε α
deriving Repr

namespace Traced

variable {ε α : Type}

def ok (a : α) : Traced ε α := ⟨[], .ok a⟩

def error (e : ε) : Traced ε α := ⟨[], .error e⟩

def after (ns : List Notice) (t : Traced ε α) : Traced ε α := ⟨ns ++ t.notices, t.result⟩

end Traced
end RefManifest
