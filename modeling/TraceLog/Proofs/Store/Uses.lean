import TraceLog.Proofs.Store.Sizes
import TraceLog.Proofs.Store.Write

/-!
# TraceLog.Proofs.Store.Uses

What a use of the generations does, whichever calls fail.

A use turns the generations first, unless it only opens the active file.  The
turn moves generations on, all of them or those behind a call that failed, and
what follows extends the active file at most.  Both leave the generations files
or missing, so uses may follow one another.

* `Generations.Orderly` — what every use preserves;
* `Generations.turn` and `Generations.after` — the turn in a use, and the use;
* `Generations.Turned`, `Generations.Orderly.exists_turned` — what the turn
  does;
* `Generations.Extended`, `Generations.extended_after` — what the rest does;
* `Generations.Orderly.foldl_after` — the disk after a run.
-/

namespace TraceLog

namespace Generations

variable {g : Generations} {t t' : FileTree} {d d' : Disk} {stop k : Nat}

/-! ## Files that would be found -/

/-- A file in the slot of the generation would be found. -/
structure Reachable (g : Generations) (t : FileTree) (index : Nat) : Prop where
  named : ∃ way name, Path.Named g.path way name
  way : g.Way t
  readable : Path.Readable (g.pathOf index)

theorem Reachable.found (h : g.Reachable t k) {content : String}
    (hfile : t.node? (g.slot t.home k) = some (.file content)) : g.Found t k := by
  obtain ⟨way, name, hnamed⟩ := h.named
  obtain ⟨place, hlookup⟩ :=
    exists_lookup hnamed h.way h.readable (FileTree.fileAt_eq_some.2 hfile)
  exact ⟨place, content, hlookup⟩

/-- What is found is a file in its slot, unless a directory has the place of
the active file. -/
theorem Found.exists_file (hfound : g.Found t k) (hgrounded : t.Grounded)
    (hplain : g.Plain t 0) :
    (∃ content, t.node? (g.slot t.home k) = some (.file content)) ∧ g.Reachable t k := by
  obtain ⟨place, content, hlookup⟩ := hfound
  have hnamed : ∃ way name, Path.Named g.path way name := by
    rcases hplain with hnone | ⟨place', content', hactive⟩
    · by_cases hk : k = 0
      · exact exists_named_of_lookup_file (hk ▸ hlookup)
      · exact exists_named_of_lookup hgrounded (by simp [hnone]) hk (by rw [hlookup]; rfl)
    · exact exists_named_of_lookup_file hactive
  obtain ⟨way, name, h⟩ := hnamed
  obtain ⟨hnode, hway, hreadable⟩ := slot_of_lookup h hlookup
  exact ⟨⟨content, hnode⟩, ⟨way, name, h⟩, hway, hreadable⟩

/-- The slots are in the directory of the generations, if it can be walked
to. -/
theorem Reachable.parent (h : g.Reachable t k) (hgrounded : t.Grounded) (index : Nat) :
    t.node? (g.slot t.home index).tail = some .directory := by
  obtain ⟨way, name, hnamed⟩ := h.named
  obtain ⟨dir, hwalk⟩ := h.way
  have hdir := hgrounded.node?_of_walk (hgrounded.node?_origin _) hwalk
  rw [FileTree.walk_eq_ok hwalk, hnamed.names_eq, List.dropLast_concat] at hdir
  rw [slot_eq hnamed, List.tail_cons]
  exact hdir

/-! ## What every use preserves -/

/-- Everything stands in a directory, every generation is a file or missing,
and asking for a length never fails by itself. -/
structure Orderly (g : Generations) (d : Disk) : Prop where
  grounded : d.tree.Grounded
  plain : ∀ k, k < g.count → g.Plain d.tree k
  sighted : d.Sighted

theorem Orderly.slot (h : g.Orderly d) (hk : k < g.count) :
    d.tree.node? (g.slot d.tree.home k) = none ∨
      (∃ content, d.tree.node? (g.slot d.tree.home k) = some (.file content)) ∧
        g.Reachable d.tree k :=
  (h.plain k hk).imp_right fun hfound => hfound.exists_file h.grounded (h.plain 0 g.count_pos)

theorem Orderly.ne_directory (h : g.Orderly d) (hk : k < g.count) :
    d.tree.node? (g.slot d.tree.home k) ≠ some .directory := by
  rcases h.slot hk with hnone | ⟨⟨content, hfile⟩, -⟩
  · simp [hnone]
  · simp [hfile]

/-- Slots may change, if what they hold then are files that would have been
found. -/
theorem Orderly.of_slots (h : g.Orderly d) (hfaults : d'.faults = d.faults)
    (hhome : d'.tree.home = d.tree.home)
    (hother : ∀ q, (∀ k, k < g.count → q ≠ g.slot d.tree.home k) →
      d'.tree.node? q = d.tree.node? q)
    (hslot : ∀ k, k < g.count → d'.tree.node? (g.slot d.tree.home k) = none ∨
      (∃ content, d'.tree.node? (g.slot d.tree.home k) = some (.file content)) ∧
        g.Reachable d.tree k) : g.Orderly d' := by
  have hafter : ∀ k, k < g.count → d'.tree.node? (g.slot d.tree.home k) ≠ some .directory := by
    intro k hk
    rcases hslot k hk with hnone | ⟨⟨content, hfile⟩, -⟩
    · simp [hnone]
    · simp [hfile]
  have hsame := directory_iff_of_slots hother (fun k hk => h.ne_directory hk) hafter
  refine ⟨FileTree.grounded_of_parent ?_ ?_, ?_, h.sighted.of_faults_eq hfaults⟩
  · intro q hq
    rw [hsame]
    by_cases hslots : ∃ k, k < g.count ∧ q = g.slot d.tree.home k
    · obtain ⟨k, hk, rfl⟩ := hslots
      have hreachable := ((hslot k hk).resolve_left hq).2
      exact hreachable.parent h.grounded k
    · rw [hother q fun k hk heq => hslots ⟨k, hk, heq⟩] at hq
      obtain ⟨node, hnode⟩ := Option.ne_none_iff_exists'.1 hq
      exact h.grounded.parent hnode
  · rw [hsame, hhome]
    exact h.grounded.2
  · intro k hk
    rcases hslot k hk with hnone | ⟨⟨content, hfile⟩, hreachable⟩
    · exact .inl (hhome ▸ hnone)
    · have hway : g.Way d'.tree := by
        simp only [Way, hhome, FileTree.walk_congr hsame]
        exact hreachable.way
      exact .inr (Reachable.found ⟨hreachable.named, hway, hreachable.readable⟩ (hhome ▸ hfile))

/-- What stands at an index once all from `stop` on have moved on by one. -/
def slid {α : Type} (stop : Nat) (files : Nat → Option α) (index : Nat) : Option α :=
  if index < stop then files index else if index = stop then none else files (index - 1)

theorem slid_of_lt {α : Type} (files : Nat → Option α) (h : k < stop) :
    slid stop files k = files k := if_pos h

theorem slid_self {α : Type} (stop : Nat) (files : Nat → Option α) :
    slid stop files stop = none := by
  rw [slid, if_neg (Nat.lt_irrefl stop), if_pos rfl]

theorem slid_succ {α : Type} (files : Nat → Option α) (h : stop ≤ k) :
    slid stop files (k + 1) = files k := by
  rw [slid, if_neg (by omega), if_neg (by omega), Nat.add_sub_cancel]

theorem MovedOn.held_eq (hmoved : g.MovedOn stop t t') (hk : k < g.count) :
    g.held t' k = slid stop (g.held t) k := by
  have hslot := hmoved.node?_slot k hk
  rw [held, hmoved.home_eq, slid]
  split
  · next hbefore => exact FileTree.fileAt_congr (by rw [hslot, if_pos hbefore])
  · next hbefore =>
      rw [if_neg hbefore] at hslot
      split
      · next hfree => exact FileTree.fileAt_eq_none (by rw [hslot, if_pos hfree])
      · next hfree => exact FileTree.fileAt_congr (by rw [hslot, if_neg hfree])

/-- Moving generations on keeps them plain. -/
theorem MovedOn.orderly (hmoved : g.MovedOn stop d.tree d'.tree) (h : g.Orderly d)
    (hfaults : d'.faults = d.faults) : g.Orderly d' := by
  refine h.of_slots hfaults hmoved.home_eq hmoved.node?_other fun k hk => ?_
  rw [hmoved.node?_slot k hk]
  split
  · exact h.slot hk
  · split
    · exact .inl rfl
    · next hbefore hne =>
        rcases h.slot (show k - 1 < g.count by omega) with hnone | ⟨⟨content, hfile⟩, hreachable⟩
        · exact .inl hnone
        · have hreadable := hmoved.readable k (by omega) hk (by simp [hfile])
          exact .inr ⟨⟨content, hfile⟩, hreachable.named, hreachable.way, hreadable⟩

/-! ## The turn in a use -/

/-- The turn of the generations that a use starts with, if it has one. -/
def turn (g : Generations) (d : Disk) : Use → Except SystemFault Bool × Disk
  | .openActive => (.ok false, d)
  | .rotateIfLarge => g.rotateIfLarge d
  | .write batch => if batch.isEmpty then (.ok false, d) else g.rotateIfLarge d

/-- The disk after a use, whatever has come of it. -/
def after (g : Generations) (d : Disk) : Use → Disk
  | .openActive => (g.openActive d).2
  | .rotateIfLarge => (g.rotateIfLarge d).2
  | .write batch => (g.write batch d).2

/-- What a turn has done: the generations from `stop` on have moved on, that is
all of them exactly if the turn has said so, and then there was an active
file. -/
structure Turned (g : Generations) (stop : Nat) (d : Disk)
    (outcome : Except SystemFault Bool × Disk) : Prop where
  moved : g.MovedOn stop d.tree outcome.2.tree
  stop_le : stop ≤ g.count
  rotated_iff : outcome.1 = .ok true ↔ stop = 0
  active : stop = 0 → (g.held d.tree 0).isSome = true
  orderly : g.Orderly outcome.2

/-- Nothing was moved. -/
theorem Orderly.turned_of_tree_eq (h : g.Orderly d) (htree : d'.tree = d.tree)
    (hfaults : d'.faults = d.faults) {result : Except SystemFault Bool}
    (hresult : result ≠ .ok true) : g.Turned g.count d (result, d') := by
  have hmoved : g.MovedOn g.count d.tree d'.tree := htree ▸ .refl g d.tree
  have hpos : g.count ≠ 0 := Nat.ne_of_gt g.count_pos
  exact ⟨hmoved, Nat.le_refl _, iff_of_false hresult hpos, fun hzero => absurd hzero hpos,
    hmoved.orderly h hfaults⟩

/-- An active file that is replaced is there. -/
theorem Orderly.isSome_held (h : g.Orderly d) (hrun : g.rotateIfLarge d = (.ok true, d')) :
    (g.held d.tree 0).isSome = true := by
  obtain ⟨way, name, hnamed⟩ := exists_named_of_rotateIfLarge hrun
  rcases rotateIfLarge_cases hrun with ⟨hrotated, -, -⟩ | ⟨-, -, size, hsize, -⟩
  · contradiction
  · rw [FileAction.length_fst_eq g.path h.sighted, FileTree.lengthAt] at hsize
    cases hlookup : d.tree.lookup (Path.route g.path) with
    | error fault => simp [hlookup] at hsize
    | ok found =>
        obtain ⟨place, node⟩ := found
        obtain ⟨hnode, -, -⟩ := slot_of_lookup (i := 0) hnamed hlookup
        rcases h.slot g.count_pos with hnone | ⟨⟨content, hfile⟩, -⟩
        · rw [hnone] at hnode
          contradiction
        · exact Option.isSome_iff_exists.2 ⟨content, FileTree.fileAt_eq_some.2 hfile⟩

/-- The generations have moved on, all of them exactly if replacing the active
file has succeeded. -/
theorem Orderly.exists_movedOn (h : g.Orderly d) :
    ∃ stop, g.MovedOn stop d.tree (g.rotate d).2.tree ∧ stop ≤ g.count ∧
      ((g.rotate d).1 = .ok () ↔ stop = 0) ∧ (g.rotate d).2.faults = d.faults := by
  have hprogress := progress_rotate h.grounded h.plain h.sighted
  cases hrun : g.rotate d with
  | mk result d' =>
      rw [hrun] at hprogress
      cases hprogress with
      | finished hmoved hfaults => exact ⟨0, hmoved, Nat.zero_le _, by simp, hfaults⟩
      | stopped hmoved hfaults hreached hcause =>
          exact ⟨_, hmoved, hreached.2, by simpa using Nat.ne_of_gt hreached.1, hfaults⟩

theorem Orderly.of_tree_eq (h : g.Orderly d) (htree : d'.tree = d.tree)
    (hfaults : d'.faults = d.faults) : g.Orderly d' :=
  ⟨htree ▸ h.grounded, fun k hk => htree ▸ h.plain k hk, h.sighted.of_faults_eq hfaults⟩

/-- **What replacing the active file does if it is large**, whichever calls
fail. -/
theorem Orderly.exists_turned_rotateIfLarge (h : g.Orderly d) :
    ∃ stop, g.Turned stop d (g.rotateIfLarge d) := by
  obtain ⟨htree, hfaults⟩ := FileAction.length_eq g.path d
  rcases g.rotateIfLarge_left_or_replaced d with ⟨result, hresult, hrun⟩ | ⟨-, hrun⟩
  · rw [hrun]
    exact ⟨_, h.turned_of_tree_eq htree hfaults hresult⟩
  · obtain ⟨stop, hmoved, hstop, hok, hfaults'⟩ := (h.of_tree_eq htree hfaults).exists_movedOn
    rw [htree] at hmoved
    rw [hfaults] at hfaults'
    have horderly := hmoved.orderly h hfaults'
    have hanswer : g.rotateIfLarge d =
        ((g.rotate (FileAction.length g.path d).2).1.map fun _ => true,
          (g.rotate (FileAction.length g.path d).2).2) := by
      rw [hrun, FileAction.run_bind]
      cases g.rotate (FileAction.length g.path d).2 with
      | mk result d' => cases result <;> rfl
    have hrotated : (g.rotateIfLarge d).1 = .ok true ↔ stop = 0 := by
      rw [hanswer, ← hok]
      cases (g.rotate (FileAction.length g.path d).2).1 <;> simp [Except.map]
    refine ⟨stop, ?_, hstop, hrotated, fun hzero => ?_, ?_⟩
    · rw [hanswer]
      exact hmoved
    · exact h.isSome_held (Prod.ext (hrotated.2 hzero) rfl)
    · rw [hanswer]
      exact horderly

/-- **The turn in a use**, whichever calls fail. -/
theorem Orderly.exists_turned (h : g.Orderly d) (use : Use) :
    ∃ stop, g.Turned stop d (g.turn d use) := by
  have hnothing : ∃ stop, g.Turned stop d (.ok false, d) :=
    ⟨_, h.turned_of_tree_eq rfl rfl (by simp)⟩
  cases use with
  | openActive => exact hnothing
  | rotateIfLarge => exact h.exists_turned_rotateIfLarge
  | write batch =>
      rw [turn]
      split
      · exact hnothing
      · exact h.exists_turned_rotateIfLarge

/-! ## The rest of a use -/

/-- Beyond the active file nothing has changed, and its text has grown at
most. -/
structure Extended (g : Generations) (t t' : FileTree) : Prop where
  home_eq : t'.home = t.home
  node?_other : ∀ q, q ≠ g.slot t.home 0 → t'.node? q = t.node? q
  active : t'.node? (g.slot t.home 0) = t.node? (g.slot t.home 0) ∨
    g.Reachable t 0 ∧ ∃ more, t'.node? (g.slot t.home 0) =
      some (.file ((t.fileAt (g.slot t.home 0)).getD "" ++ more))

theorem Extended.of_tree_eq (h : t' = t) : g.Extended t t' := by
  subst h
  exact ⟨rfl, fun _ _ => rfl, .inl rfl⟩

/-- What could be opened would be found. -/
theorem reachable_of_openActive {place : Place} (hrun : g.openActive d = (.ok place, d')) :
    g.Reachable d.tree 0 := by
  have hnamed := exists_named hrun
  rw [openActive, FileAction.openForAppend] at hrun
  obtain ⟨hopen, -⟩ := Disk.call_eq_ok hrun
  obtain ⟨last, dir, happroach, -, hsize, -⟩ := FileTree.openForAppend_eq_ok hopen
  obtain ⟨way, name, h⟩ := hnamed
  obtain ⟨-, hway, hreadable⟩ := slot_of_approach (i := 0) h happroach
  exact ⟨⟨way, name, h⟩, hway, hreadable hsize⟩

/-- Opening that fails changes nothing. -/
theorem extended_of_not_opened {fault : SystemFault}
    (hrun : g.openActive d = (.error fault, d')) : g.Extended d.tree d'.tree := by
  rw [openActive, FileAction.openForAppend] at hrun
  exact .of_tree_eq (Disk.call_eq_error hrun).1

/-- An empty file holds what a missing one held, and nothing more. -/
theorem exists_more_of_made {place : Place} (hnone : t.node? place = none)
    (hnew : t'.node? place = some (.file "")) :
    ∃ more, t'.node? place = some (.file ((t.fileAt place).getD "" ++ more)) := by
  refine ⟨"", ?_⟩
  rw [hnew, FileTree.fileAt_eq_none hnone]
  rfl

theorem extended_of_openActive (g : Generations) (d : Disk) :
    g.Extended d.tree (g.openActive d).2.tree := by
  cases hrun : g.openActive d with
  | mk result d' =>
      cases result with
      | error fault => exact extended_of_not_opened hrun
      | ok place =>
          have hopened := opened_of_openActive hrun
          obtain ⟨hhome, hother, hplace⟩ := hopened.node?_eq
          rw [hopened.place_eq] at hother hplace
          refine ⟨hhome, hother, ?_⟩
          rcases hplace with ⟨hnone, hnew⟩ | ⟨hsame, -⟩
          · exact .inr ⟨reachable_of_openActive hrun, exists_more_of_made hnone hnew⟩
          · exact .inl hsame

/-- Bringing a text to the active file extends it at most. -/
theorem extended_of_run {text : String} (htext : text ≠ "") {result : Except SystemFault Unit}
    (hrun : (g.openActive >>= fun file => appendWhole file text) d = (result, d')) :
    g.Extended d.tree d'.tree := by
  have hdelivery := delivery_of_run htext hrun
  rw [FileAction.run_bind] at hrun
  cases hopen : g.openActive d with
  | mk first opened =>
      rw [hopen] at hrun
      cases first with
      | error fault =>
          cases hrun
          exact extended_of_not_opened hopen
      | ok place =>
          have hreachable := reachable_of_openActive hopen
          refine ⟨hdelivery.home_eq, hdelivery.node?_other, ?_⟩
          cases result with
          | ok _ =>
              rcases hdelivery.node?_ok rfl with hwritten | ⟨hnull, hswallowed⟩
              · exact .inr ⟨hreachable, text, hwritten⟩
              · exact .inl (hswallowed.trans hnull.symm)
          | error fault =>
              rcases hdelivery.node?_error fault rfl with hsame | ⟨hnone, hnew⟩ | ⟨-, hclosed⟩
              · exact .inl hsame
              · exact .inr ⟨hreachable, exists_more_of_made hnone hnew⟩
              · exact .inr ⟨hreachable, "\n", hclosed⟩

/-- **The rest of a use** extends the active file at most. -/
theorem extended_after (g : Generations) (d : Disk) (use : Use) :
    g.Extended (g.turn d use).2.tree (g.after d use).tree := by
  cases use with
  | openActive => exact g.extended_of_openActive d
  | rotateIfLarge => exact .of_tree_eq rfl
  | write batch =>
      rw [turn, after, write]
      split
      · exact .of_tree_eq rfl
      · next hbatch =>
          have hlines : batch ≠ [] := by simpa using hbatch
          have htext : ended batch ≠ "" := by
            intro hempty
            exact utf8ByteSize_ended_ne_zero hlines (by rw [hempty]; rfl)
          exact extended_of_run htext rfl

/-- Writing to an open file leaves the faults of the disk as they are. -/
theorem keepsFaults_appendWhole (file : Place) (text : String) :
    FileAction.KeepsFaults (appendWhole file text) := by
  have hR := FileAction.steady_faults
  have hlength := FileAction.keepsFaults_call (.lengthOf file) fun t => .ok (t.lengthOf file, t)
  have happend : ∀ more, FileAction.KeepsFaults (FileAction.append file more) :=
    fun _ => FileAction.keepsFaults_call _ _
  refine FileAction.Within.bind hR hlength fun start =>
    FileAction.Within.bind hR (.outcome (happend text)) fun written => ?_
  cases written with
  | ok _ => exact FileAction.Within.pure hR ()
  | error fault =>
      have hthrow := FileAction.Within.throw (α := Unit) hR fault
      have hclose := FileAction.Within.bind hR (.outcome (happend "\n")) fun _ => hthrow
      have hend : ∀ partly : Bool, FileAction.KeepsFaults (if partly = true then do
          let _ ← Disk.outcome (FileAction.append file "\n")
          throw fault
        else throw fault : FileAction Unit) := by
        intro partly
        cases partly with
        | true => exact hclose
        | false => exact hthrow
      exact FileAction.Within.bind hR (.outcome hlength) fun grown => hend _

theorem faults_after (g : Generations) (d : Disk) (use : Use) :
    (g.after d use).faults = (g.turn d use).2.faults := by
  have hopen : FileAction.KeepsFaults g.openActive := FileAction.keepsFaults_call _ _
  cases use with
  | openActive => exact hopen d
  | rotateIfLarge => rfl
  | write batch =>
      rw [turn, after, write]
      split
      · rfl
      · exact FileAction.Within.bind FileAction.steady_faults hopen
          (fun file => keepsFaults_appendWhole file _) _

/-- The other generations are as they were. -/
theorem Extended.node?_older (h : g.Extended t t') (hk : k ≠ 0) :
    t'.node? (g.slot t.home k) = t.node? (g.slot t.home k) := by
  by_cases hplace : g.slot t.home k = g.slot t.home 0
  · rcases h.active with hsame | ⟨⟨⟨way, name, hnamed⟩, -, -⟩, -⟩
    · rw [hplace, hsame]
    · exact absurd ((slot_eq_slot_iff hnamed _).1 hplace) hk
  · exact h.node?_other _ hplace

theorem Extended.held_older (h : g.Extended t t') (hk : k ≠ 0) : g.held t' k = g.held t k := by
  rw [held, h.home_eq]
  exact FileTree.fileAt_congr (h.node?_older hk)

/-- No content is lost. -/
theorem Extended.exists_held (h : g.Extended t t') {content : String}
    (hheld : g.held t k = some content) : ∃ more, g.held t' k = some (content ++ more) := by
  by_cases hk : k = 0
  · subst hk
    rcases h.active with hsame | ⟨-, more, hmore⟩
    · refine ⟨"", ?_⟩
      rw [held, h.home_eq, FileTree.fileAt_congr hsame, String.append_empty]
      exact hheld
    · rw [held] at hheld
      rw [hheld, Option.getD_some] at hmore
      refine ⟨more, ?_⟩
      rw [held, h.home_eq]
      exact FileTree.fileAt_eq_some.2 hmore
  · exact ⟨"", by rw [h.held_older hk, hheld, String.append_empty]⟩

/-- Extending the active file keeps the generations plain. -/
theorem Extended.orderly (hextended : g.Extended d.tree d'.tree) (h : g.Orderly d)
    (hfaults : d'.faults = d.faults) : g.Orderly d' := by
  refine h.of_slots hfaults hextended.home_eq ?_ fun k hk => ?_
  · exact fun q hq => hextended.node?_other q (hq 0 g.count_pos)
  · by_cases hzero : k = 0
    · subst hzero
      rcases hextended.active with hsame | ⟨hreachable, more, hmore⟩
      · rw [hsame]
        exact h.slot hk
      · exact .inr ⟨⟨_, hmore⟩, hreachable⟩
    · rw [hextended.node?_older hzero]
      exact h.slot hk

/-! ## Runs -/

/-- **Every use preserves order.** -/
theorem Orderly.after (h : g.Orderly d) (use : Use) : g.Orderly (g.after d use) := by
  obtain ⟨stop, hturned⟩ := h.exists_turned use
  exact (g.extended_after d use).orderly hturned.orderly (g.faults_after d use)

theorem Orderly.foldl_after (h : g.Orderly d) (uses : List Use) :
    g.Orderly (uses.foldl g.after d) := by
  induction uses generalizing d with
  | nil => exact h
  | cons use uses ih => exact ih (h.after use)

end Generations

end TraceLog
