import TraceLog.Proofs.Store.Calls
import TraceLog.Store.Generations

/-!
# TraceLog.Proofs.Store.Append

What comes of writing to an open file.

A file is measured before a text is written to it.  A text that is refused has
left the file as long as it was, so nothing is done about it, unless that could
not be told: then a line feed is written, too.

* `FileTree.append_eq_ok` — what is there once a text was taken;
* `Generations.Appended` — the outcomes;
* `Generations.appended_appendWhole` — there are no others.
-/

namespace TraceLog

namespace FileTree

/-- A text that was written stands behind that of the file; a device that takes
it keeps nothing. -/
theorem append_eq_ok {t t' : FileTree} {place : Place} {text : String}
    (htext : text ≠ "") (hplace : place ≠ [])
    (hthere : t.node? place ≠ none ∧ t.node? place ≠ some .directory)
    (h : t.append place text = .ok t') :
    (∃ content, t.node? place = some (.file content) ∧ t'.home = t.home ∧
        ∀ q, t'.node? q = if q = place then some (.file (content ++ text)) else t.node? q) ∨
      t.node? place = some .null ∧ t' = t := by
  rw [FileTree.append] at h
  split at h
  · next content hcontent =>
      rw [Except.ok.injEq] at h
      subst h
      exact .inl ⟨content, hcontent, rfl, FileTree.node?_put t hplace _⟩
  · simp [htext] at h
  · next hfile hfull =>
      rw [Except.ok.injEq] at h
      refine .inr ⟨?_, h.symm⟩
      cases hnode : t.node? place with
      | none => exact absurd hnode hthere.1
      | some node =>
          cases node with
          | file content => exact absurd hnode (hfile content)
          | directory => exact absurd hnode hthere.2
          | null => rfl
          | full => exact absurd hnode hfull

end FileTree

namespace Generations

variable {d : Disk} {place : Place} {text : String}

/-- What comes of writing a text to an open file: its length could not be told,
or the text was written or refused; a text that was refused may be closed by a
line feed if the length could not be told again. -/
inductive Appended (place : Place) (text : String) (d : Disk) :
    Except SystemFault Unit × Disk → Prop where
  | unseen {fault : SystemFault} {d' : Disk}
      (hlength : FileAction.lengthOf place d = (.error fault, d')) :
      Appended place text d (.error fault, d')
  | whole {start : Nat} {seen d' : Disk}
      (hlength : FileAction.lengthOf place d = (.ok start, seen))
      (happend : FileAction.append place text seen = (.ok (), d')) :
      Appended place text d (.ok (), d')
  | refused {start : Nat} {fault : SystemFault} {seen after d' : Disk}
      (hlength : FileAction.lengthOf place d = (.ok start, seen))
      (happend : FileAction.append place text seen = (.error fault, after))
      (htree : d'.tree = d.tree) :
      Appended place text d (.error fault, d')
  | closed {start : Nat} {fault unread : SystemFault} {seen after d' : Disk}
      (hlength : FileAction.lengthOf place d = (.ok start, seen))
      (happend : FileAction.append place text seen = (.error fault, after))
      (hunread : (FileAction.lengthOf place after).1 = .error unread)
      (htree : d.tree.append place "\n" = .ok d'.tree) :
      Appended place text d (.error fault, d')

/-- A text that was refused has left the file as long as it was, so it is closed
only if that could not be told. -/
theorem appended_of_refused {start : Nat} {fault : SystemFault} {seen after : Disk}
    (hlength : FileAction.lengthOf place d = (.ok start, seen))
    (happend : FileAction.append place text seen = (.error fault, after)) :
    Appended place text d (appendWhole place text d) := by
  have hseen := FileAction.lengthOf_eq place d
  rw [hlength] at hseen
  obtain ⟨hafter, -⟩ := Disk.change_eq_error happend
  have hmeasured := FileAction.lengthOf_eq place after
  rw [appendWhole, FileAction.run_bind, hlength]
  dsimp only
  rw [FileAction.run_bind, Disk.run_outcome, happend]
  dsimp only
  rw [FileAction.run_bind, Disk.run_outcome]
  cases hagain : FileAction.lengthOf place after with
  | mk grown measured =>
      rw [hagain] at hmeasured
      have htree : measured.tree = d.tree := hmeasured.1.trans (hafter.trans hseen.1)
      cases grown with
      | ok length =>
          -- Both lengths are those of the same tree, so nothing has arrived.
          have hstart := FileAction.eq_of_lengthOf_eq_ok hlength
          have hsame := FileAction.eq_of_lengthOf_eq_ok hagain
          rw [hafter, hseen.1] at hsame
          dsimp only
          rw [if_neg (by simp; omega)]
          exact .refused hlength happend htree
      | error unread =>
          dsimp only
          rw [if_pos rfl, FileAction.run_bind, Disk.run_outcome]
          cases hclose : FileAction.append place "\n" measured with
          | mk closing last =>
              cases closing with
              | ok =>
                  obtain ⟨hclosed, -⟩ := Disk.change_eq_ok hclose
                  rw [htree] at hclosed
                  have hunread : (FileAction.lengthOf place after).1 = .error unread := by
                    rw [hagain]
                  exact .closed hlength happend hunread hclosed
              | error refused =>
                  obtain ⟨hkept, -⟩ := Disk.change_eq_error hclose
                  exact .refused hlength happend (hkept.trans htree)

/-- **Writing to an open file** has one of these outcomes. -/
theorem appended_appendWhole (place : Place) (text : String) (d : Disk) :
    Appended place text d (appendWhole place text d) := by
  cases hlength : FileAction.lengthOf place d with
  | mk first seen =>
      cases first with
      | error fault =>
          rw [appendWhole, FileAction.run_bind, hlength]
          exact .unseen hlength
      | ok start =>
          cases happend : FileAction.append place text seen with
          | mk second after =>
              cases second with
              | error fault => exact appended_of_refused hlength happend
              | ok =>
                  rw [appendWhole, FileAction.run_bind, hlength]
                  dsimp only
                  rw [FileAction.run_bind, Disk.run_outcome, happend]
                  exact .whole hlength happend

end Generations

end TraceLog
