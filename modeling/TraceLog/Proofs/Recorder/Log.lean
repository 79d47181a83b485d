import Mathlib.Logic.Relation
import TraceLog.Proofs.Recorder.Calls

/-!
# TraceLog.Proofs.Recorder.Log

Sessions of a trace file, one after the other.

A log is what one session after the other leaves behind: recorders are made,
record events, are flushed and closed, while others may do what they like
elsewhere on the disk.  A step of a log either lets the lines that were encoded
wait behind the others, or writes all that waits as one batch.

* `Log.act?` — the calls, as far as no call on a file fails;
* `Log.Step`, `Log.Run` — one step of a log, and any number of them;
* `Log.Ready` — what the steps rely on;
* `Log.Change` — what a step does to the lines;
* `Log.Ready.change` — every step does one of these, and keeps the log ready.
-/

namespace TraceLog

/-- What the sessions of a trace file have come to. -/
structure Log where
  /-- The recorder of the session; it does nothing between sessions. -/
  recorder : Recorder
  disk : Disk
  /-- The lines of the events that were recorded, in the order of the calls. -/
  encoded : List String

namespace Log

/-! ## Calls -/

/-- The events that a recorder records. -/
inductive Event where
  | config (model : ModelSettings) (cache : CacheSettings) (layout : Option LayoutSettings)
  | request (r : Request)
  | wait (w : Wait)

/-- The record of an event. -/
def Event.record (time : Timestamp) : Event → Record
  | .config model cache layout => .config time model cache layout
  | .request r => .request time r
  | .wait w => .wait time w

/-- Records an event; none if the call comes to no end. -/
def Event.run? (time : Timestamp) (event : Event) (clock : Clock) (recorder : Recorder)
    (disk : Disk) : Option (Except Failure Unit × Recorder × Disk) :=
  match event with
  | .config model cache layout =>
    some (Recorder.config time model cache layout clock recorder disk)
  | .request r => Recorder.request? time r clock recorder disk
  | .wait w => some (Recorder.wait time w clock recorder disk)

/-- What is done with recorders, with the time or the readings of the clock. -/
inductive Act where
  | make (now : Nat)
  | trace (time : Timestamp) (event : Event) (clock : Clock)
  | flush (clock : Clock)
  /-- Closing writes what waits, and so does the drop that comes with it. -/
  | close (closed dropped : Clock)
  | drop (clock : Clock)

variable (t : Tracing) (log : Log)

/-- The lines that wait. -/
def pending : List String :=
  match log.recorder.session with
  | none => []
  | some s => s.buffer.queue.toList

/-- What the generations hold. -/
def files : Nat → Option String := (Generations.ofTracing t).held log.disk.tree

/-- The lines that recording adds to those that were encoded. -/
def linesFor (record : Record) : List String :=
  match log.recorder.session, record.toLine with
  | some _, .ok line => [line]
  | _, _ => []

/-- The batch that recording hands to the file, if one is due. -/
def batchFor (record : Record) (clock : Clock) : List String :=
  match log.recorder.session, record.toLine with
  | some s, .ok line =>
    if (s.buffer.push line).isDue clock.check then s.buffer.queue.toList ++ [line] else []
  | _, _ => []

/-- A call, and what the log is after it; none if a call on a file fails, or
if a recorder is to be made before the last session has ended. -/
def act? : Act → Option Log
  | .make now =>
    if log.recorder.isEnabled then none
    else match Recorder.of t now log.disk with
      | (.error _, _) => none
      | (.ok recorder, disk) => some { log with recorder, disk }
  | .trace time event clock =>
    match event.run? time clock log.recorder log.disk with
    | none => some log
    | some (.error _, recorder, disk) => some { log with recorder, disk }
    | some (.ok (), recorder, disk) =>
      if (Generations.ofTracing t).smooth (log.batchFor (event.record time) clock) log.disk then
        some ⟨recorder, disk, log.encoded ++ log.linesFor (event.record time)⟩
      else none
  | .flush clock =>
    if (Generations.ofTracing t).smooth log.pending log.disk then
      let (_, recorder, disk) := log.recorder.flush clock log.disk
      some { log with recorder, disk }
    else none
  | .close closed dropped =>
    if (Generations.ofTracing t).smooth log.pending log.disk then
      let (_, recorder, disk) := log.recorder.flush closed log.disk
      some { log with recorder := .disabled, disk := recorder.close dropped disk }
    else none
  | .drop clock =>
    if (Generations.ofTracing t).smooth log.pending log.disk then
      some { log with recorder := .disabled, disk := log.recorder.close clock log.disk }
    else none

/-- One step: a call that goes well, or anything that others do elsewhere. -/
inductive Step : Log → Prop where
  | act {log' : Log} (act : Act) (hact : log.act? t act = some log') : Step log'
  | elsewhere (tree : FileTree) (hhome : tree.home = log.disk.tree.home)
      (hslots : ∀ k, tree.node? ((Generations.ofTracing t).slot log.disk.tree.home k) =
        log.disk.tree.node? ((Generations.ofTracing t).slot log.disk.tree.home k)) :
      Step { log with disk := { log.disk with tree } }

/-- Any number of steps. -/
abbrev Run : Log → Log → Prop := Relation.ReflTransGen (Step t)

/-- Calls one after the other; none if one of them is none. -/
def follow? (log : Log) : List Act → Option Log
  | [] => some log
  | act :: acts => (log.act? t act).bind fun next => next.follow? acts

/-- Calls one after the other are a run. -/
theorem run_of_follow? {log log' : Log} {acts : List Act} (h : log.follow? t acts = some log') :
    Run t log log' := by
  induction acts generalizing log with
  | nil =>
      rw [follow?, Option.some.injEq] at h
      exact h ▸ .refl
  | cons act acts ih =>
      rw [follow?] at h
      obtain ⟨next, hact, hrest⟩ := Option.bind_eq_some_iff.1 h
      exact .head (.act act hact) (ih hrest)

/-- Following calls as far as they can be made leads to what can be reached. -/
theorem run_getD_follow? (log : Log) (acts : List Act) :
    Run t log ((log.follow? t acts).getD log) := by
  cases h : log.follow? t acts with
  | none => exact .refl
  | some log' => exact run_of_follow? t h

/-- A log before the first session. -/
def start (disk : Disk) : Log := ⟨.disabled, disk, []⟩

/-! ## What a step does -/

/-- What the steps of a log rely on: no call fails by itself, the slots of the
generations are tidy, and the session is one of the file. -/
structure Ready : Prop where
  quiet : log.disk.Quiet
  tidy : (Generations.ofTracing t).Tidy log.disk.tree
  file_eq : ∀ s, log.recorder.session = some s → s.file = .ofTracing t

/-- What a step does to the lines: the new ones are encoded, and either they
wait behind the others, or all that waits is written as one batch. -/
structure Change (new : List String) (log' : Log) : Prop where
  encoded_eq : log'.encoded = log.encoded ++ new
  oneLiners : OneLiners new
  ready : log'.Ready t
  files_eq : (log'.files t = log.files t ∧ log'.pending = log.pending ++ new) ∨
    ∃ rotated, log'.files t =
        (Generations.ofTracing t).written rotated (log.pending ++ new) (log.files t) ∧
      log'.pending = []

variable {t log} {log' : Log}

/-- A step that leaves everything as it was. -/
theorem Ready.change_refl (h : log.Ready t) : log.Change t [] log := by
  refine ⟨?_, ?_, h, .inl ⟨rfl, ?_⟩⟩
  · rw [List.append_nil]
  · simp [OneLiners]
  · rw [List.append_nil]

/-- A step that writes all that waits and the new lines. -/
theorem Ready.change_of_write (h : log.Ready t) {new : List String} (hnew : OneLiners new)
    (hsmooth : (Generations.ofTracing t).smooth (log.pending ++ new) log.disk = true)
    (hdisk : log'.disk = ((Generations.ofTracing t).write (log.pending ++ new) log.disk).2)
    (hencoded : log'.encoded = log.encoded ++ new) (hpending : log'.pending = [])
    (hfile : ∀ s, log'.recorder.session = some s → s.file = .ofTracing t) :
    log.Change t new log' := by
  have hwritten := Generations.write_of_smooth h.tidy h.quiet hsmooth
  rw [← hdisk] at hwritten
  cases hwritten with
  | inl hnothing =>
      obtain ⟨hempty, hsame⟩ := hnothing
      have hfiles : log'.files t = log.files t := by rw [files, files, hsame]
      have hready : log'.Ready t := by
        refine ⟨?_, ?_, hfile⟩
        · rw [hsame]
          exact h.quiet
        · rw [hsame]
          exact h.tidy
      refine ⟨hencoded, hnew, hready, .inl ⟨hfiles, ?_⟩⟩
      rw [hpending, hempty]
  | inr hbatch =>
      obtain ⟨hfaults, htidy, rotated, hheld⟩ := hbatch
      have hquiet := h.quiet.of_faults_eq hfaults
      exact ⟨hencoded, hnew, ⟨hquiet, htidy, hfile⟩, .inr ⟨rotated, funext hheld, hpending⟩⟩

/-- An event that is recorded at all is added as a record. -/
theorem Event.run?_eq_some {time : Timestamp} {event : Event} {clock : Clock} {recorder : Recorder}
    {disk : Disk} {result : Except Failure Unit × Recorder × Disk}
    (h : event.run? time clock recorder disk = some result) :
    Recorder.add (event.record time) clock recorder disk = result := by
  cases event with
  | config model cache layout => exact Option.some.inj h
  | request r =>
      obtain ⟨_ | s⟩ := recorder
      · exact Option.some.inj h
      · simp only [run?, Recorder.request?] at h
        split at h
        · exact Option.some.inj h
        · contradiction
  | wait w => exact Option.some.inj h

/-- Making a recorder opens the file. -/
theorem Ready.change_make (h : log.Ready t) {now : Nat}
    (hact : log.act? t (.make now) = some log') : log.Change t [] log' := by
  simp only [act?] at hact
  split at hact
  · contradiction
  · next hfree =>
      have hnone : log.recorder.session = none := by
        simpa [Recorder.isEnabled] using hfree
      split at hact
      · contradiction
      · next recorder disk hmake =>
          cases hact
          rcases Recorder.of_eq_ok hmake with ⟨rfl, rfl⟩ | ⟨hprepare, s, rfl, hfile, hqueue⟩
          · refine ⟨by simp, by simp [OneLiners], ⟨h.quiet, h.tidy, ?_⟩, .inl ⟨rfl, ?_⟩⟩
            · simp [Recorder.disabled]
            · simp [pending, Recorder.disabled, hnone]
          · obtain ⟨hfaults, htidy, rotated, hheld⟩ :=
              Recorder.prepare_eq_ok h.tidy h.quiet hprepare
            have hempty : log.pending = [] := by simp [pending, hnone]
            have hquiet : disk.Quiet := h.quiet.of_faults_eq hfaults
            refine ⟨by simp, by simp [OneLiners], ⟨hquiet, htidy, ?_⟩, .inr ⟨rotated, ?_, ?_⟩⟩
            · rintro s' ⟨⟩
              exact hfile
            · rw [hempty]
              exact funext hheld
            · simp [pending, hqueue]

/-- Recording an event that has a line adds the line. -/
theorem Ready.change_line {s : Session} {disk : Disk} {encoded : List String} {record : Record}
    {line : String} {clock : Clock} (h : Ready t ⟨⟨some s⟩, disk, encoded⟩)
    (hline : record.toLine = .ok line)
    (hsmooth : (Generations.ofTracing t).smooth
      (batchFor ⟨⟨some s⟩, disk, encoded⟩ record clock) disk = true) :
    ∃ s' disk', Recorder.add record clock ⟨some s⟩ disk = (.ok (), ⟨some s'⟩, disk') ∧
      Change t ⟨⟨some s⟩, disk, encoded⟩ [line] ⟨⟨some s'⟩, disk', encoded ++ [line]⟩ := by
  obtain ⟨s', disk', hadd, hfile, htaken⟩ := Recorder.add_eq_ok hline clock s disk
  have hone : OneLiners [line] := by
    simpa [OneLiners] using Record.newline_notMem hline
  have hs : s.file = .ofTracing t := h.file_eq s rfl
  have hs' : ∀ u, some s' = some u → u.file = .ofTracing t := by
    rintro u ⟨⟩
    rw [hfile, hs]
  refine ⟨s', disk', hadd, ?_⟩
  cases htaken with
  | inl hwaits =>
      obtain ⟨-, hqueue, rfl⟩ := hwaits
      exact ⟨rfl, hone, ⟨h.quiet, h.tidy, hs'⟩, .inl ⟨rfl, hqueue⟩⟩
  | inr hwrites =>
      obtain ⟨hdue, hqueue, hdisk⟩ := hwrites
      simp only [batchFor, hline] at hsmooth
      rw [if_pos hdue] at hsmooth
      rw [hs] at hdisk
      exact h.change_of_write hone hsmooth hdisk rfl hqueue hs'

/-- Recording an event adds its line, unless it has none. -/
theorem Ready.change_trace (h : log.Ready t) {time : Timestamp} {event : Event} {clock : Clock}
    (hact : log.act? t (.trace time event clock) = some log') :
    ∃ new, log.Change t new log' := by
  simp only [act?] at hact
  cases hrun : event.run? time clock log.recorder log.disk with
  | none =>
      rw [hrun] at hact
      cases hact
      exact ⟨[], h.change_refl⟩
  | some result =>
      rw [hrun] at hact
      have hadd := Event.run?_eq_some hrun
      obtain ⟨⟨_ | s⟩, disk, encoded⟩ := log
      · -- Without a session nothing is encoded.
        have hresult : result = (.ok (), ⟨none⟩, disk) := hadd.symm
        subst hresult
        simp only [linesFor, List.append_nil] at hact
        split at hact
        · cases hact
          exact ⟨[], h.change_refl⟩
        · contradiction
      · cases hline : (event.record time).toLine with
        | error failure =>
            rw [Recorder.add_of_toLine_eq_error hline] at hadd
            subst hadd
            cases hact
            exact ⟨[], h.change_refl⟩
        | ok line =>
            obtain ⟨s₁, disk₁, hok, -⟩ := Recorder.add_eq_ok hline clock s disk
            rw [hok] at hadd
            subst hadd
            dsimp only at hact
            split at hact
            · next hsmooth =>
                obtain ⟨s', disk', hadd', hchange⟩ := h.change_line hline hsmooth
                rw [hok] at hadd'
                simp only [linesFor, hline] at hact
                cases hadd'
                cases hact
                exact ⟨[line], hchange⟩
            · contradiction

/-- What a flush does, and also the last one of a recorder: all that waits is
written. -/
theorem Ready.change_flush (h : log.Ready t)
    (hsmooth : (Generations.ofTracing t).smooth log.pending log.disk = true) (clock : Clock) :
    log.Change t [] { log with
      recorder := (log.recorder.flush clock log.disk).2.1
      disk := (log.recorder.flush clock log.disk).2.2 } ∧
    log.Change t [] { log with
      recorder := .disabled
      disk := (log.recorder.flush clock log.disk).2.2 } := by
  have hnil : OneLiners [] := by simp [OneLiners]
  obtain ⟨⟨_ | s⟩, disk, encoded⟩ := log
  · exact ⟨h.change_refl, h.change_refl⟩
  · obtain ⟨s', hflush, hfile, hqueue⟩ := Recorder.flush_eq clock s disk
    have hs : s.file = .ofTracing t := h.file_eq s rfl
    have hs' : ∀ u, some s' = some u → u.file = .ofTracing t := by
      rintro u ⟨⟩
      rw [hfile, hs]
    have hbatch : s.buffer.queue.toList = pending ⟨⟨some s⟩, disk, encoded⟩ ++ [] :=
      (List.append_nil _).symm
    rw [hs, hbatch] at hflush
    rw [← List.append_nil (pending _)] at hsmooth
    dsimp only
    rw [hflush]
    constructor
    · exact h.change_of_write hnil hsmooth rfl (List.append_nil _).symm hqueue hs'
    · refine h.change_of_write hnil hsmooth rfl (List.append_nil _).symm rfl ?_
      simp [Recorder.disabled]

/-- **A step of a log** changes the lines in one of two ways. -/
theorem Ready.change (h : log.Ready t) (hstep : log.Step t log') :
    ∃ new, log.Change t new log' := by
  cases hstep with
  | elsewhere tree hhome hslots =>
      obtain ⟨htidy, hheld⟩ := Generations.tidy_of_node?_eq h.tidy hhome fun k => .inl (hslots k)
      refine ⟨[], by simp, by simp [OneLiners], ⟨h.quiet, htidy, h.file_eq⟩, .inl ⟨?_, ?_⟩⟩
      · exact funext hheld
      · rw [List.append_nil]
        rfl
  | act act hact =>
      cases act with
      | make now => exact ⟨[], h.change_make hact⟩
      | trace time event clock => exact h.change_trace hact
      | flush clock =>
          simp only [act?] at hact
          split at hact
          · next hsmooth =>
              cases hact
              exact ⟨[], (h.change_flush hsmooth clock).1⟩
          · contradiction
      | close closed dropped =>
          simp only [act?] at hact
          split at hact
          · next hsmooth =>
              cases hact
              rw [Recorder.close_flush]
              exact ⟨[], (h.change_flush hsmooth closed).2⟩
          · contradiction
      | drop clock =>
          simp only [act?] at hact
          split at hact
          · next hsmooth =>
              cases hact
              exact ⟨[], (h.change_flush hsmooth clock).2⟩
          · contradiction

end Log

end TraceLog
