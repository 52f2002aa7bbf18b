import BrokerCli.Environment
import BrokerCli.Session

/-!
# Executions

A run of the tool acts on its surroundings: it prints, it complains, it writes log records, it reads
and writes the configuration. All of that is a change of one value, an `Execution`.

* `Event` -- one thing that was shown; the `transcript` is the list of them in order. A record that
  the level in force does not admit never becomes an event;
* `output`, `complaints`, `logText`, `errorStream` -- what an observer sees of a transcript. Each grows
  by the text of one event when that event is emitted (`output_emit` and its like);
* `Effect` -- an action on an execution that cannot fail; `Run ε` -- one that can. `perform` says what
  an action comes to, and has one equation for every way of putting actions together;
* `Session.load`, `save` and `saveUpdated` of the session in an execution -- reading the configuration,
  writing it, and writing it if it has changed and is remembered at all.
-/

namespace BrokerCli

/-! ## 1. Events -/

/-- One thing that was shown. -/
inductive Event where
  | printed (text : String)
  | complained (text : String)
  | logged (r : Record)
deriving DecidableEq, Repr

namespace Event

/-- What an event puts on the standard output. -/
def output : Event → String
  | printed t => t
  | _ => ""

/-- What an event adds to the complaints. -/
def complaint : Event → String
  | complained t => t
  | _ => ""

/-- What an event adds to the log. -/
def logLine : Event → String
  | logged r => r.line
  | _ => ""

/-- What an event puts on the error stream: complaints and log lines. -/
def error (e : Event) : String := e.complaint ++ e.logLine

end Event

/-- A run of the tool with its surroundings. -/
structure Execution where
  session : Session := {}
  files : FileSystem := {}
  environment : Environment := {}
  /-- How much of the log is shown. -/
  threshold : LogLevel := .err
  transcript : List Event := []
deriving Inhabited

namespace Execution

/-! ## 2. What was shown -/

/-- What went to the standard output. -/
def output (p : Execution) : String := String.join (p.transcript.map Event.output)

/-- The complaints. -/
def complaints (p : Execution) : String := String.join (p.transcript.map Event.complaint)

/-- The lines of the log. -/
def logText (p : Execution) : String := String.join (p.transcript.map Event.logLine)

/-- What went to the error stream, in its order. -/
def errorStream (p : Execution) : String := String.join (p.transcript.map Event.error)

/-- The execution after one more event. -/
def emit (p : Execution) (e : Event) : Execution := { p with transcript := p.transcript ++ [e] }

@[simp] theorem transcript_emit (p : Execution) (e : Event) :
    (p.emit e).transcript = p.transcript ++ [e] := rfl

@[simp] theorem session_emit (p : Execution) (e : Event) : (p.emit e).session = p.session := rfl

@[simp] theorem files_emit (p : Execution) (e : Event) : (p.emit e).files = p.files := rfl

@[simp] theorem output_emit (p : Execution) (e : Event) :
    (p.emit e).output = p.output ++ e.output := by
  simp [output]

@[simp] theorem complaints_emit (p : Execution) (e : Event) :
    (p.emit e).complaints = p.complaints ++ e.complaint := by
  simp [complaints]

@[simp] theorem logText_emit (p : Execution) (e : Event) :
    (p.emit e).logText = p.logText ++ e.logLine := by
  simp [logText]

@[simp] theorem errorStream_emit (p : Execution) (e : Event) :
    (p.emit e).errorStream = p.errorStream ++ e.error := by
  simp [errorStream]

/-- The execution after a log record, which is shown only if the level in force admits it. -/
def note (p : Execution) (severity : Severity) (message : String) : Execution :=
  if p.threshold.admits severity then p.emit (.logged ⟨severity, message⟩) else p

@[simp] theorem session_note (p : Execution) (s : Severity) (m : String) :
    (p.note s m).session = p.session := by
  unfold note
  split <;> rfl

@[simp] theorem files_note (p : Execution) (s : Severity) (m : String) :
    (p.note s m).files = p.files := by
  unfold note
  split <;> rfl

/-- The log is no output. -/
@[simp] theorem output_note (p : Execution) (s : Severity) (m : String) :
    (p.note s m).output = p.output := by
  unfold note
  split
  · simp [Event.output]
  · rfl

/-- The log is no complaint. -/
@[simp] theorem complaints_note (p : Execution) (s : Severity) (m : String) :
    (p.note s m).complaints = p.complaints := by
  unfold note
  split
  · simp [Event.complaint]
  · rfl

end Execution

/-! ## 3. Actions -/

/-- An action on an execution. -/
abbrev Effect := StateM Execution

/-- An action on an execution that can fail. What it did before it failed stays done. -/
abbrev Run (ε : Type) := ExceptT ε Effect

/-- An action with its outcome as a value: it does not fail, whatever comes of it. -/
def Run.attempt {ε ε' α : Type} (x : Run ε α) : Run ε' (Except ε α) :=
  ExceptT.lift (ExceptT.run x)

namespace Effect

/-- Writes to the standard output. -/
def print (text : String) : Effect Unit := modify (·.emit (.printed text))

/-- Writes to the error stream. -/
def complain (text : String) : Effect Unit := modify (·.emit (.complained text))

/-- Writes a log record. -/
def log (severity : Severity) (message : String) : Effect Unit := modify (·.note severity message)

/-- A remark for the log, if there is one. -/
def remark : Option String → Effect Unit
  | some text => log .debug text
  | none => pure ()

/-- The session. -/
def session : Effect Session := return (← get).session

/-- Changes the session. -/
def modifySession (f : Session → Session) : Effect Unit :=
  modify fun p => { p with session := f p.session }

/-- Changes the settings of the session. -/
def modifySettings (f : Settings → Settings) : Effect Unit :=
  modifySession fun s => { s with settings := f s.settings }

end Effect

/-! ## 4. What actions come to -/

namespace Effect

/-- What an action comes to: its result, and the execution that it leaves behind. -/
def perform {α : Type} (x : Effect α) (p : Execution) : α × Execution := x.run p

section

variable {α β : Type} (p : Execution)

@[simp] theorem perform_pure (a : α) : (pure a : Effect α).perform p = (a, p) := rfl

/-- One action goes on where the other one stopped. -/
@[simp] theorem perform_bind (x : Effect α) (f : α → Effect β) :
    (x >>= f).perform p = (f (x.perform p).1).perform (x.perform p).2 := rfl

@[simp] theorem perform_map (f : α → β) (x : Effect α) :
    (f <$> x).perform p = (f (x.perform p).1, (x.perform p).2) := rfl

@[simp] theorem perform_get : (get : Effect Execution).perform p = (p, p) := rfl

@[simp] theorem perform_modify (f : Execution → Execution) :
    (modify f : Effect PUnit).perform p = (⟨⟩, f p) := rfl

theorem perform_ite (c : Prop) [Decidable c] (x y : Effect α) :
    (if c then x else y).perform p = if c then x.perform p else y.perform p := by
  split <;> rfl

@[simp] theorem perform_print (text : String) :
    (print text).perform p = ((), p.emit (.printed text)) := rfl

@[simp] theorem perform_complain (text : String) :
    (complain text).perform p = ((), p.emit (.complained text)) := rfl

@[simp] theorem perform_log (severity : Severity) (message : String) :
    (log severity message).perform p = ((), p.note severity message) := rfl

@[simp] theorem perform_session : session.perform p = (p.session, p) := rfl

@[simp] theorem perform_modifySession (f : Session → Session) :
    (modifySession f).perform p = ((), { p with session := f p.session }) := rfl

end

end Effect

namespace Run

/-- What an action comes to: its outcome, and the execution that it leaves behind. -/
def perform {ε α : Type} (x : Run ε α) (p : Execution) : Except ε α × Execution :=
  Effect.perform (ExceptT.run x) p

section

variable {ε ε' α β : Type} (p : Execution)

@[simp] theorem perform_run (x : Run ε α) : Effect.perform (ExceptT.run x) p = x.perform p := rfl

@[simp] theorem perform_pure (a : α) : (pure a : Run ε α).perform p = (.ok a, p) := rfl

@[simp] theorem perform_throw (e : ε) : (throw e : Run ε α).perform p = (.error e, p) := rfl

/-- After a failure nothing more happens. -/
@[simp] theorem perform_bind (x : Run ε α) (f : α → Run ε β) :
    (x >>= f).perform p = match x.perform p with
      | (.ok a, q) => (f a).perform q
      | (.error e, q) => (.error e, q) := by
  simp only [perform, ExceptT.run_bind, Effect.perform_bind]
  rcases Effect.perform (ExceptT.run x) p with ⟨_ | _, q⟩ <;> rfl

@[simp] theorem perform_map (f : α → β) (x : Run ε α) :
    (f <$> x).perform p = ((x.perform p).1.map f, (x.perform p).2) := by
  simp only [perform, ExceptT.run_map, Effect.perform_map]

@[simp] theorem perform_lift (x : Effect α) :
    (liftM x : Run ε α).perform p = (.ok (x.perform p).1, (x.perform p).2) := rfl

@[simp] theorem perform_get : (get : Run ε Execution).perform p = (.ok p, p) := rfl

@[simp] theorem perform_set (q : Execution) : (set q : Run ε PUnit).perform p = (.ok ⟨⟩, q) := rfl

@[simp] theorem perform_modify (f : Execution → Execution) :
    (modify f : Run ε PUnit).perform p = (.ok ⟨⟩, f p) := rfl

/-- A failure seen from further out leaves behind what it left behind. -/
@[simp] theorem perform_adapt (f : ε → ε') (x : Run ε α) :
    Run.perform (ExceptT.adapt f x) p = ((x.perform p).1.mapError f, (x.perform p).2) := rfl

theorem mapError_ok (f : ε → ε') (a : α) : (Except.ok a).mapError f = .ok a := rfl

/-- An attempt leaves behind what the action itself leaves behind. -/
@[simp] theorem perform_attempt (x : Run ε α) :
    (Run.attempt x : Run ε' (Except ε α)).perform p = (.ok (x.perform p).1, (x.perform p).2) := rfl

theorem perform_ite (c : Prop) [Decidable c] (x y : Run ε α) :
    (if c then x else y).perform p = if c then x.perform p else y.perform p := by
  split <;> rfl

end

end Run

/-! ## 5. The configuration -/

namespace Session

/-- Takes the configuration from the store. Without a store everything stays as it is. -/
def load : Run StoreError Unit := do
  let p ← get
  match p.session.store with
  | none => pure ()
  | some store => match store.load p.files with
    | .error e => throw e
    | .ok (c, remark) =>
      Effect.remark remark
      Effect.modifySession (·.withConfiguration c)

/-- Writes the configuration to the store. A batch run writes nothing. -/
def save : Run StoreError Unit := do
  let p ← get
  if p.session.batch then Effect.log .debug "batch mode, config not saved"
  else match p.session.store with
    | none => throw .noStore
    | some store =>
      let saved := store.save p.files p.session.configuration
      set { p with files := saved.files, session := { p.session with store := some saved.store } }
      match saved.outcome with
      | .error e => throw e
      | .ok remark => Effect.remark remark

/-- Writes the configuration if the settings have changed and are remembered at all. -/
def saveUpdated : Run StoreError Unit := do
  let s ← Effect.session
  if s.updated && s.settings.usePrevious then
    save
    Effect.modifySession fun s => { s with updated := false }

end Session

end BrokerCli
