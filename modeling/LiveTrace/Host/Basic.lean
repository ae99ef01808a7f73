import LiveTrace.Project.Submission

/-
  What all runs share: the files, the submissions, the slot with the one that is registered,
  the log, and how many run ids were given out.
-/
namespace LiveTrace

/-- The place of a submission among all submissions. Two may have the same id. -/
abbrev Key := Nat

structure Host (σ : Type) where
  files : Files := {}
  submissions : List (Submission σ) := []
  /-- The submission that hooks reach. -/
  current : Option Key := none
  /-- The log, first line first. -/
  log : List LogLine := []
  /-- How many run ids were given out. -/
  runs : Nat := 0

namespace Host

variable {σ α : Type}

def submission? (h : Host σ) (k : Key) : Option (Submission σ) := h.submissions[k]?

/-- The id of a submission. -/
def idOf? (h : Host σ) (k : Key) : Option SubmissionId := (h.submission? k).map (·.id)

/-- The id of the registered submission. -/
def currentId? (h : Host σ) : Option SubmissionId := h.current.bind h.idOf?

def write (h : Host σ) (lines : List LogLine) : Host σ := { h with log := h.log ++ lines }

def debug (h : Host σ) (text : String) : Host σ := h.write [⟨.debug, text⟩]

def info (h : Host σ) (text : String) : Host σ := h.write [⟨.info, text⟩]

def warn (h : Host σ) (text : String) : Host σ := h.write [⟨.warn, text⟩]

def error (h : Host σ) (text : String) : Host σ := h.write [⟨.error, text⟩]

/-- Changes one submission. -/
def update (h : Host σ) (k : Key) (f : Submission σ → Submission σ) : Host σ :=
  { h with submissions := h.submissions.modify k f }

/-- Sets the flag of a submission. -/
def cancel (h : Host σ) (k : Key) : Host σ := h.update k Submission.cancel

/-- Whether the flag of a submission is set. -/
def isCanceled (h : Host σ) (k : Key) : Bool := ((h.submission? k).map (·.canceled)).getD false

/-- Makes a call to the sink of a submission. The call sees the submission's flag. -/
def withSink (h : Host σ) (k : Key) (call : Bool → SinkCall σ α) : Host σ × Except Panic α :=
  match h.submission? k with
  | none => (h, .error .other)
  | some s =>
    let r := call s.canceled s.sink
    ((h.update k fun s => { s with sink := r.sink }).write r.log, r.result)

/-- Registers a submission in place of any other. -/
def load (h : Host σ) (k : Key) : Host σ :=
  let h' := { h with current := some k }
  match h.idOf? k, h.currentId? with
  | some id, some previous =>
    h'.debug s!"Submission {id} replaces stale hook registration {previous}"
  | _, _ => h'

/-- Drops a registration of the id `id`: if the registered submission has that id, none is
registered any more. -/
def drop (h : Host σ) (id : SubmissionId) : Host σ :=
  if h.currentId? = some id then { h with current := none } else h

end Host

end LiveTrace
