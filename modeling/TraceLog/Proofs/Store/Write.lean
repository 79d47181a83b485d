import TraceLog.Proofs.Store.Turn

/-!
# TraceLog.Proofs.Store.Write

What comes of writing a batch, whichever calls fail.

The generations are turned first, however that ends; then the active file is
opened, measured and written.  So a batch is there as a whole or not at all,
and beyond the turn nothing but the active file may change.

* `Generations.Opened` — what opening the active file does;
* `Generations.Delivery` — what comes of bringing a text to the active file;
* `Generations.write_outcome` — the answer to a batch, and all places afterwards.
-/

namespace TraceLog

namespace Generations

variable {g : Generations} {d d' : Disk} {place : Place} {text : String}
  {result : Except SystemFault Unit}

/-! ## Opening -/

/-- The active file has been opened: it was there, or it was made empty. -/
structure Opened (g : Generations) (t t' : FileTree) (place : Place) : Prop where
  place_eq : place = g.slot t.home 0
  place_ne_nil : place ≠ []
  tree : (t.node? place = none ∧ t' = t.put place (.file "")) ∨
    ∃ node, t.node? place = some node ∧ node ≠ .directory ∧ t' = t

theorem opened_of_openActive {d' : Disk} (hrun : g.openActive d = (.ok place, d')) :
    g.Opened d.tree d'.tree place := by
  rw [openActive, FileAction.openForAppend] at hrun
  obtain ⟨hopen, -⟩ := Disk.call_eq_ok hrun
  obtain ⟨name, dir, happroach, -, -, rfl, htree⟩ := FileTree.openForAppend_eq_ok hopen
  have hplace : g.slot d.tree.home 0 = name :: dir := FileTree.place_of_approach happroach
  exact ⟨hplace.symm, List.cons_ne_nil _ _, htree⟩

/-- What stands at the active file once it has been opened; all else is as
before. -/
theorem Opened.node?_eq {t t' : FileTree} (h : g.Opened t t' place) :
    t'.home = t.home ∧ (∀ q, q ≠ place → t'.node? q = t.node? q) ∧
      (t.node? place = none ∧ t'.node? place = some (.file "") ∨
        t'.node? place = t.node? place ∧ t.node? place ≠ none ∧
          t.node? place ≠ some .directory) := by
  rcases h.tree with ⟨hnone, rfl⟩ | ⟨node, hnode, hfile, rfl⟩
  · refine ⟨rfl, fun q hq => ?_, .inl ⟨hnone, ?_⟩⟩
    · rw [FileTree.node?_put _ h.place_ne_nil, if_neg hq]
    · rw [FileTree.node?_put _ h.place_ne_nil, if_pos rfl]
  · exact ⟨rfl, fun _ _ => rfl, .inr ⟨rfl, by simp [hnode], by simp [hnode, hfile]⟩⟩

/-- The text of the active file, empty if it has just been made. -/
theorem Opened.fileAt_eq {t t' : FileTree} (h : g.Opened t t' place) {content : String}
    (hcontent : t'.node? place = some (.file content)) : content = (t.fileAt place).getD "" := by
  obtain ⟨-, -, hplace⟩ := h.node?_eq
  rcases hplace with ⟨hnone, hnew⟩ | ⟨hsame, -, -⟩
  · rw [hnew, Option.some.injEq, Node.file.injEq] at hcontent
    rw [FileTree.fileAt_eq_none hnone, Option.getD_none, hcontent]
  · rw [hsame] at hcontent
    rw [FileTree.fileAt_eq_some.2 hcontent, Option.getD_some]

/-! ## Bringing a text to the active file -/

/-- The active file can be opened and measured, and then takes the text. -/
def Takes (g : Generations) (text : String) (d : Disk) : Prop :=
  ∃ place opened start seen after, g.openActive d = (.ok place, opened) ∧
    FileAction.lengthOf place opened = (.ok start, seen) ∧
    FileAction.append place text seen = (.ok (), after)

/-- The active file can be opened and measured, but refuses the text and then
cannot be measured again. -/
def LosesSight (g : Generations) (text : String) (d : Disk) : Prop :=
  ∃ place opened start seen fault after unread, g.openActive d = (.ok place, opened) ∧
    FileAction.lengthOf place opened = (.ok start, seen) ∧
    FileAction.append place text seen = (.error fault, after) ∧
    (FileAction.lengthOf place after).1 = .error unread

/-- What has come of bringing a text to the active file of a disk. -/
structure Delivery (g : Generations) (text : String) (d : Disk) (result : Except SystemFault Unit)
    (t' : FileTree) : Prop where
  /-- There is no other fault than that of a call on the active file. -/
  ok_iff : result = .ok () ↔ g.Takes text d
  home_eq : t'.home = d.tree.home
  node?_other : ∀ q, q ≠ g.slot d.tree.home 0 → t'.node? q = d.tree.node? q
  /-- The text stands behind what was there, unless a device swallowed it. -/
  node?_ok : result = .ok () →
    t'.node? (g.slot d.tree.home 0) =
        some (.file ((d.tree.fileAt (g.slot d.tree.home 0)).getD "" ++ text)) ∨
      d.tree.node? (g.slot d.tree.home 0) = some .null ∧
        t'.node? (g.slot d.tree.home 0) = some .null
  /-- Nothing of the text is there.  The file may have been made, and a line
  feed is behind it if its length could not be told any more. -/
  node?_error : ∀ fault, result = .error fault →
    t'.node? (g.slot d.tree.home 0) = d.tree.node? (g.slot d.tree.home 0) ∨
      d.tree.node? (g.slot d.tree.home 0) = none ∧
        t'.node? (g.slot d.tree.home 0) = some (.file "") ∨
      g.LosesSight text d ∧ t'.node? (g.slot d.tree.home 0) =
        some (.file ((d.tree.fileAt (g.slot d.tree.home 0)).getD "" ++ "\n"))

theorem takes_iff {opened : Disk} (hopen : g.openActive d = (.ok place, opened)) :
    g.Takes text d ↔ ∃ start seen after, FileAction.lengthOf place opened = (.ok start, seen) ∧
      FileAction.append place text seen = (.ok (), after) := by
  simp only [Takes, hopen]
  grind

/-- A text that was not taken has left the file as it was opened. -/
theorem Opened.delivery_of_kept {t' : FileTree} (h : g.Opened d.tree t' place)
    (hnot : ¬g.Takes text d) (fault : SystemFault) : g.Delivery text d (.error fault) t' := by
  obtain ⟨hhome, hother, hplace⟩ := h.node?_eq
  rw [h.place_eq] at hother hplace
  refine ⟨by simp [hnot], hhome, hother, by simp, fun _ _ => ?_⟩
  rcases hplace with ⟨hnone, hnew⟩ | ⟨hsame, -, -⟩
  · exact .inr (.inl ⟨hnone, hnew⟩)
  · exact .inl hsame

/-- What stands where after something was written to the opened file. -/
theorem Opened.node?_append {t t' t'' : FileTree} (h : g.Opened t t' place) (htext : text ≠ "")
    (happend : t'.append place text = .ok t'') :
    t''.home = t.home ∧ (∀ q, q ≠ g.slot t.home 0 → t''.node? q = t.node? q) ∧
      (t''.node? (g.slot t.home 0) =
          some (.file ((t.fileAt (g.slot t.home 0)).getD "" ++ text)) ∨
        t.node? (g.slot t.home 0) = some .null ∧ t''.node? (g.slot t.home 0) = some .null) := by
  obtain ⟨hhome, hother, hplace⟩ := h.node?_eq
  have hthere : t'.node? place ≠ none ∧ t'.node? place ≠ some .directory := by
    rcases hplace with ⟨-, hnew⟩ | ⟨hsame, hthere, hfile⟩
    · simp [hnew]
    · exact hsame ▸ ⟨hthere, hfile⟩
  rcases FileTree.append_eq_ok htext h.place_ne_nil hthere happend with
    ⟨content, hcontent, hhome', hwritten⟩ | ⟨hnull, rfl⟩
  · rw [← h.place_eq, ← h.fileAt_eq hcontent]
    refine ⟨hhome'.trans hhome, fun q hq => ?_, .inl ?_⟩
    · rw [hwritten, if_neg hq, hother q hq]
    · rw [hwritten, if_pos rfl]
  · rw [← h.place_eq]
    refine ⟨hhome, hother, .inr ⟨?_, hnull⟩⟩
    rcases hplace with ⟨-, hnew⟩ | ⟨hsame, -, -⟩
    · rw [hnew] at hnull
      contradiction
    · exact hsame ▸ hnull

/-- **What has come of a text** that was brought to the file that was
opened. -/
theorem delivery_of_appended (htext : text ≠ "") {opened : Disk}
    (hopen : g.openActive d = (.ok place, opened)) (h : Appended place text opened (result, d')) :
    g.Delivery text d result d'.tree := by
  have hopened := opened_of_openActive hopen
  have htakes : g.Takes text d ↔ _ := takes_iff hopen
  cases h with
  | unseen hlength =>
      have hnot : ¬g.Takes text d := by grind
      have hseen := FileAction.lengthOf_eq place opened
      rw [hlength] at hseen
      rw [hseen.1]
      exact hopened.delivery_of_kept hnot _
  | whole hlength happend =>
      have hseen := FileAction.lengthOf_eq place opened
      rw [hlength] at hseen
      obtain ⟨hwritten, -⟩ := Disk.change_eq_ok happend
      rw [hseen.1] at hwritten
      obtain ⟨hhome, hother, hplace⟩ := hopened.node?_append htext hwritten
      exact ⟨by grind, hhome, hother, fun _ => hplace, by simp⟩
  | refused hlength happend htree =>
      have hnot : ¬g.Takes text d := by grind
      rw [htree]
      exact hopened.delivery_of_kept hnot _
  | closed hlength happend hunread htree =>
      have hnot : ¬g.Takes text d := by grind
      have hsight : g.LosesSight text d :=
        ⟨_, _, _, _, _, _, _, hopen, hlength, happend, hunread⟩
      obtain ⟨hhome, hother, hplace⟩ := hopened.node?_append (by decide) htree
      refine ⟨by simp [hnot], hhome, hother, by simp, fun _ _ => ?_⟩
      rcases hplace with hline | ⟨hnull, hsame⟩
      · exact .inr (.inr ⟨hsight, hline⟩)
      · exact .inl (hsame.trans hnull.symm)

/-- **Bringing a text to the active file**, whichever calls fail. -/
theorem delivery_of_run (htext : text ≠ "")
    (hrun : (g.openActive >>= fun file => appendWhole file text) d = (result, d')) :
    g.Delivery text d result d'.tree := by
  rw [FileAction.run_bind] at hrun
  cases hopen : g.openActive d with
  | mk first opened =>
      rw [hopen] at hrun
      cases first with
      | ok place =>
          have happended := appended_appendWhole place text opened
          dsimp only at hrun
          rw [hrun] at happended
          exact delivery_of_appended htext hopen happended
      | error fault =>
          have hnot : ¬g.Takes text d := by grind [Takes]
          rw [openActive, FileAction.openForAppend] at hopen
          obtain ⟨htree, -⟩ := Disk.call_eq_error hopen
          cases hrun
          rw [htree]
          exact ⟨by simp [hnot], rfl, fun _ _ => rfl, by simp, fun _ _ => .inl rfl⟩

/-! ## Writing a batch -/

/-- **A batch is written whole or not at all**, and the turn of the generations
costs it nothing.  Nothing is done for an empty batch.  Any other batch is
brought to the active file of the disk as the turn has left it, whether that
succeeded, failed or stopped halfway. -/
theorem write_outcome (g : Generations) (batch : List String) (d : Disk) :
    (batch = [] → g.write batch d = (.ok (), d)) ∧
      (batch ≠ [] → g.Delivery (ended batch) (g.rotateIfLarge d).2 (g.write batch d).1
        (g.write batch d).2.tree) := by
  constructor
  · rintro rfl
    rfl
  · intro hbatch
    have hsome : ¬batch.isEmpty = true := by simpa using hbatch
    have htext : ended batch ≠ "" := by
      intro hempty
      exact utf8ByteSize_ended_ne_zero hbatch (by rw [hempty]; rfl)
    refine delivery_of_run htext ?_
    rw [write, if_neg hsome]
    rfl

/-- A device takes a batch and keeps nothing of it; and a file that refuses a
batch, and whose length cannot be told then, gains a line feed. -/
theorem write_swallowed_and_write_closed :
    let g : Generations := ⟨"/dev/null", 3, ⟨0⟩, by decide⟩
    let d : Disk := .quiet ⟨[(["null", "dev"], .null), (["dev"], .directory)], [], 4096⟩
    let g' : Generations := ⟨"t.log", 3, ⟨9218868437227405312⟩, by decide⟩
    let d' : Disk := ⟨⟨[(["t.log"], .file "a\n")], [], 4096⟩, 0, fun n _ =>
      if n = 3 then some .full else if n = 4 then some .denied else none⟩
    ((g.write ["a"] d).1 = .ok () ∧
      (g.write ["a"] d).2.tree.fileAt (g.slot [] 0) = none) ∧
    ((g'.write ["b"] d').1 = .error .full ∧
      (g'.rotateIfLarge d').2.tree.fileAt (g'.slot [] 0) = some "a\n" ∧
      (g'.write ["b"] d').2.tree.fileAt (g'.slot [] 0) = some "a\n\n") := by
  decide +kernel

end Generations

end TraceLog
