import TraceLog.Proofs.Recorder.Log

/-!
# TraceLog.Proofs.Recorder.Account

Where the lines of a log are.

At any time the lines in the generations, the oldest first, and those that
wait are the last ones that were encoded, each of them once and in the order
of the calls.  What is missing in front are generations that were discarded,
each of them as a whole, when the others moved on.

* `Log.Discards` — a step that discards a generation;
* `Log.Sound` — what every step preserves;
* `Log.stored_pending_suffix_encoded` — where the lines of a log are.
-/

namespace TraceLog

theorem OneLiners.of_append {lines more : List String} (h : OneLiners (lines ++ more)) :
    OneLiners more := fun line hline => h line (List.mem_append_right lines hline)

/-- Settings that were checked keep at least the active file. -/
theorem Tracing.count_ofTracing {t : Tracing} (h : t.validate = .ok ()) :
    (Generations.ofTracing t).count = t.maxFiles.toNat := by
  have hfiles : t.maxFiles ≠ 0 := by
    rintro hzero
    rw [validate] at h
    repeat' split at h
    all_goals contradiction
  have hpos : t.maxFiles.toNat ≠ 0 := by
    intro hzero
    exact hfiles (UInt64.toNat_inj.1 hzero)
  show max t.maxFiles.toNat 1 = t.maxFiles.toNat
  omega

namespace Log

open Generations

variable (t : Tracing)

/-- A step that discards a generation with these lines: it was the oldest one,
the others have moved on, and the active file has begun anew with what was
waiting and what came in. -/
structure Discards (lines : List String) (log log' : Log) : Prop where
  oldest : ∃ content, log.files t ((ofTracing t).count - 1) = some content ∧
    linesIn content = lines
  moved : ∀ k, k + 1 < (ofTracing t).count → log'.files t (k + 1) = log.files t k
  anew : ∃ new, log'.encoded = log.encoded ++ new ∧
    log'.files t 0 = some (ended (log.pending ++ new))

/-- A generation with these lines was discarded on the way from one log to the
other. -/
def Discarded (first log : Log) (lines : List String) : Prop :=
  ∃ earlier later, Run t first earlier ∧ earlier.Step t later ∧ Run t later log ∧
    Discards t lines earlier later

/-- What every step preserves: the files hold ended lines, and every line that
was encoded is in a generation that was discarded, in one that is kept, or
waits. -/
structure Sound (first log : Log) : Prop where
  ready : log.Ready t
  oneLiners : OneLiners log.encoded
  whole : (ofTracing t).Whole (log.files t)
  account : ∃ gone : List (List String),
    gone.flatten ++ (stored (log.files t) (ofTracing t).count ++ log.pending) = log.encoded ∧
      ∀ lines ∈ gone, Discarded t first log lines

variable {t} {first log log' : Log}

theorem Discarded.step {lines : List String} (h : Discarded t first log lines)
    (hstep : log.Step t log') : Discarded t first log' lines := by
  obtain ⟨earlier, later, hbefore, hdiscard, hafter, hdiscards⟩ := h
  exact ⟨earlier, later, hbefore, hdiscard, hafter.tail hstep, hdiscards⟩

/-! ## One step -/

variable {new : List String}

/-- After a step the files still hold ended lines. -/
theorem Change.whole (h : log.Change t new log') (hwhole : (ofTracing t).Whole (log.files t))
    (hbatch : OneLiners (log.pending ++ new)) : (ofTracing t).Whole (log'.files t) := by
  cases h.files_eq with
  | inl hwaits =>
      rw [hwaits.1]
      exact hwhole
  | inr hwrites =>
      obtain ⟨rotated, hfiles, -⟩ := hwrites
      rw [hfiles]
      exact hwhole.written rotated hbatch

/-- A step in which the generations move on discards the oldest one. -/
theorem Change.discards (h : log.Change t new log') {content : String}
    (holdest : log.files t ((ofTracing t).count - 1) = some content)
    (hfiles : log'.files t =
      (ofTracing t).written true (log.pending ++ new) (log.files t)) :
    Discards t (linesIn content) log log' := by
  refine ⟨⟨content, holdest, rfl⟩, ?_, new, h.encoded_eq, ?_⟩
  · intro k hk
    rw [hfiles]
    simp [written, shifted, hk]
  · rw [hfiles]
    simp [written, shifted]

/-- The lines in the files and those that wait and come in are there after a
step, but for those of a generation that it discards. -/
theorem Change.exists_gone (h : log.Change t new log')
    (hwhole : (ofTracing t).Whole (log.files t)) (hbatch : OneLiners (log.pending ++ new)) :
    ∃ gone : List (List String),
      stored (log.files t) (ofTracing t).count ++ (log.pending ++ new) =
        gone.flatten ++ (stored (log'.files t) (ofTracing t).count ++ log'.pending) ∧
      ∀ lines ∈ gone, Discards t lines log log' := by
  cases h.files_eq with
  | inl hwaits =>
      obtain ⟨hfiles, hpending⟩ := hwaits
      refine ⟨[], ?_, by simp⟩
      rw [hfiles, hpending, List.flatten_nil, List.nil_append]
  | inr hwrites =>
      obtain ⟨rotated, hfiles, hpending⟩ := hwrites
      have hstored := stored_written hwhole rotated hbatch
      rw [← hfiles] at hstored
      rw [hpending, List.append_nil, hstored]
      cases rotated with
      | false => exact ⟨[], by simp, by simp⟩
      | true =>
          rw [if_pos rfl]
          cases holdest : log.files t ((ofTracing t).count - 1) with
          | none =>
              have hnothing := linesOf_of_eq_none holdest
              exact ⟨[], by rw [hnothing, List.flatten_nil], by simp⟩
          | some content =>
              have hlines : linesOf (log.files t) ((ofTracing t).count - 1) =
                  linesIn content := by
                rw [linesOf, holdest, Option.getD_some]
              refine ⟨[linesIn content], by rw [hlines, List.flatten_singleton], ?_⟩
              intro lines hmem
              rw [List.mem_singleton] at hmem
              rw [hmem]
              exact h.discards holdest hfiles

/-- **Every step preserves the account.** -/
theorem Sound.step (h : Sound t first log) (hrun : Run t first log) (hstep : log.Step t log') :
    Sound t first log' := by
  obtain ⟨new, hchange⟩ := h.ready.change hstep
  obtain ⟨gone, haccount, hgone⟩ := h.account
  have hpending : OneLiners log.pending := by
    have hall := h.oneLiners
    rw [← haccount, ← List.append_assoc] at hall
    exact hall.of_append
  have hbatch : OneLiners (log.pending ++ new) := hpending.append hchange.oneLiners
  have hencoded : OneLiners log'.encoded := by
    rw [hchange.encoded_eq]
    exact h.oneLiners.append hchange.oneLiners
  obtain ⟨more, hmore, hdiscards⟩ := hchange.exists_gone h.whole hbatch
  refine ⟨hchange.ready, hencoded, hchange.whole h.whole hbatch, gone ++ more, ?_, ?_⟩
  · rw [hchange.encoded_eq, ← haccount, List.flatten_append, List.append_assoc, ← hmore]
    simp only [List.append_assoc]
  · intro lines hmem
    rw [List.mem_append] at hmem
    cases hmem with
    | inl hbefore => exact (hgone lines hbefore).step hstep
    | inr hnow => exact ⟨log, log', hrun, hstep, .refl, hdiscards lines hnow⟩

/-! ## Whole runs -/

/-- A log before the first session, with no file in the way, is accounted
for. -/
theorem sound_start {disk : Disk} (hquiet : disk.Quiet)
    (hvacant : ∀ k, disk.tree.node? ((ofTracing t).slot disk.tree.home k) = none) :
    Sound t (start disk) (start disk) := by
  have hfiles : ∀ k, (start disk).files t k = none := fun k =>
    FileTree.fileAt_eq_none (hvacant k)
  have hstored : ∀ count, stored ((start disk).files t) count = [] := by
    intro count
    induction count with
    | zero => rfl
    | succ index ih => simp [stored, ih, linesOf_of_eq_none (hfiles index)]
  refine ⟨⟨hquiet, tidy_of_vacant hvacant, ?_⟩, ?_, ⟨?_, ?_⟩, [], ?_, ?_⟩
  · simp [start, Recorder.disabled]
  · simp [start, OneLiners]
  · simp [hfiles]
  · simp [hfiles]
  · rw [hstored]
    rfl
  · simp

theorem sound_of_run (hstart : Sound t first first) (hrun : Run t first log) :
    Sound t first log := by
  induction hrun with
  | refl => exact hstart
  | tail hrun hstep ih => exact ih.step hrun hstep

/-- **Where the lines of a log are.**  Let settings be valid, and let nothing
stand where the generations of their file would.  After any steps of any sessions, the lines in the
generations that are kept, the oldest first, and then those that wait are the
last lines that were encoded, in the order of the calls.  The lines in front
of them are those of generations that were discarded as a whole; every file
is made up of ended lines; and no generation beyond those that are kept is
there. -/
theorem stored_pending_suffix_encoded (hvalid : t.validate = .ok ()) {disk : Disk}
    (hquiet : disk.Quiet)
    (hvacant : ∀ k, disk.tree.node? ((ofTracing t).slot disk.tree.home k) = none)
    (hrun : Run t (start disk) log) :
    stored (log.files t) t.maxFiles.toNat ++ log.pending <:+ log.encoded ∧
      (∃ gone : List (List String),
        gone.flatten ++ (stored (log.files t) t.maxFiles.toNat ++ log.pending) = log.encoded ∧
          ∀ lines ∈ gone, Discarded t (start disk) log lines) ∧
      (∀ k content, log.files t k = some content → ended (linesIn content) = content) ∧
      ∀ k, t.maxFiles.toNat ≤ k → log.files t k = none := by
  have hsound := sound_of_run (sound_start hquiet hvacant) hrun
  obtain ⟨gone, haccount, hgone⟩ := hsound.account
  rw [← Tracing.count_ofTracing hvalid]
  exact ⟨⟨gone.flatten, haccount⟩, ⟨gone, haccount, hgone⟩, hsound.whole.ended_eq,
    hsound.whole.kept⟩

/-- Three sessions that keep two files: of three lines the first one was
discarded, the next one is in the older generation, and the last one waits. -/
theorem stored_pending_suffix_encoded_of_three_sessions :
    let t := ((Tracing.toFile "t.log").withMaxFileSize ⟨0⟩).withMaxFiles 2
    ∃ log, Run t (start (.quiet ⟨[], [], 4096⟩)) log ∧
      (log.encoded.length, (linesOf (log.files t) 1).length, log.pending.length) = (3, 1, 1) ∧
      stored (log.files t) 2 ++ log.pending <:+ log.encoded := by
  intro t
  obtain ⟨⟨⟩, hvalid⟩ : ∃ value, t.validate = .ok value := exists_of_isOk (by decide +kernel)
  have hnamed : Path.Named t.path [] "t.log" :=
    ⟨by decide +kernel, by decide +kernel, by decide, by decide⟩
  have hvacant : ∀ k, (Disk.quiet ⟨[], [], 4096⟩).tree.node? ((ofTracing t).slot [] k) = none := by
    intro k
    have hne := slot_ne_nil (g := ofTracing t) hnamed [] k
    simp [Disk.quiet, FileTree.node?, FileTree.find?, hne]
  have hrun := run_getD_follow? t (start (.quiet ⟨[], [], 4096⟩))
    [ .make 0, .trace ⟨0, 0, 0⟩ (.wait ⟨"a", [], none⟩) ⟨0, 0⟩, .close ⟨0, 0⟩ ⟨0, 0⟩,
      .make 0, .trace ⟨0, 0, 0⟩ (.wait ⟨"b", [], none⟩) ⟨0, 0⟩, .close ⟨0, 0⟩ ⟨0, 0⟩,
      .make 0, .trace ⟨0, 0, 0⟩ (.wait ⟨"c", [], none⟩) ⟨0, 0⟩ ]
  refine ⟨_, hrun, ?_, ?_⟩
  · decide +kernel
  · exact (stored_pending_suffix_encoded hvalid (fun _ _ => rfl) hvacant hrun).1

end Log

end TraceLog
