import TraceLog.Store.FileTree

/-!
# TraceLog.Proofs.Store.Places

Where the generations of a file stand.

There are no links in a tree, so the place that a path leads to can be read
off the path: a walk gets there, or nowhere.  The paths of all generations
differ in their last name only, so the generations stand in one directory,
each under a name of its own.

* `Path.place` — the place that a path names, there or not;
* `FileTree.walk_eq_ok` — a walk that gets anywhere gets to that place;
* `Path.Named` — a path whose last name is that of a file;
* `Path.Named.place_generation` — the places of the generations.
-/

namespace TraceLog

namespace Path

/-! ## Texts of generations -/

theorem decimal_injective {m n : Nat} (h : decimal m = decimal n) : m = n := by
  rw [← Nat.ofDigitChars_ten_toDigits (n := m), ← Nat.ofDigitChars_ten_toDigits (n := n)]
  exact congrArg (Nat.ofDigitChars 10 · 0) h

/-- What stands behind the path of a generation. -/
def suffix (index : Nat) : List Char := if index = 0 then [] else '.' :: decimal index

theorem toList_generation (path : String) (index : Nat) :
    (generation path index).toList = path.toList ++ suffix index := by
  by_cases hindex : index = 0
  · simp [generation, suffix, hindex]
  · simp [generation, suffix, hindex]

theorem slash_notMem_suffix (index : Nat) : '/' ∉ suffix index := by
  intro hmem
  by_cases hindex : index = 0
  · simp [suffix, hindex] at hmem
  · simp only [suffix, hindex, if_false, List.mem_cons, Char.reduceEq, false_or] at hmem
    have hdigit := Nat.isDigit_of_mem_toDigits (by omega) (by omega) hmem
    contradiction

/-- Different generations have different suffixes. -/
theorem suffix_injective {j k : Nat} (h : suffix j = suffix k) : j = k := by
  by_cases hj : j = 0
  · by_cases hk : k = 0
    · omega
    · simp [suffix, hj, hk] at h
  · by_cases hk : k = 0
    · simp [suffix, hj, hk] at h
    · simp only [suffix, hj, hk, if_false, List.cons.injEq, true_and] at h
      exact decimal_injective h

/-- Different generations have different paths, and different names. -/
theorem generation_injective {path : String} {j k : Nat}
    (h : generation path j = generation path k) : j = k := by
  have htext := congrArg String.toList h
  rw [toList_generation, toList_generation, List.append_cancel_left_eq] at htext
  exact suffix_injective htext

/-! ## Parts with something behind them -/

/-- What stands behind a slash has parts of its own. -/
theorem parts_append_slash (cs more : List Char) :
    parts (cs ++ '/' :: more) = parts cs ++ parts more := by
  induction cs with
  | nil => simp [parts]
  | cons c cs ih =>
      obtain ⟨part, rest, hparts⟩ := List.exists_cons_of_ne_nil (parts_ne_nil cs)
      by_cases hc : c = '/' <;> simp [parts, hc, ih, hparts]

/-- A text without slashes is one part. -/
theorem parts_of_notMem {cs : List Char} (h : '/' ∉ cs) : parts cs = [cs] := by
  induction cs with
  | nil => rfl
  | cons c cs ih =>
      rw [List.mem_cons, not_or] at h
      simp [parts, Ne.symm h.1, ih h.2]

/-- A text without slashes behind another one goes to its last part. -/
theorem exists_parts_append (cs : List Char) :
    ∃ front last, (last = [] → cs = [] ∨ cs.getLast? = some '/') ∧
      ∀ more, '/' ∉ more → parts (cs ++ more) = front ++ [last ++ more] := by
  induction cs with
  | nil =>
      refine ⟨[], [], fun _ => .inl rfl, ?_⟩
      intro more hmore
      simp [parts_of_notMem hmore]
  | cons c cs ih =>
      obtain ⟨front, last, hlast, hparts⟩ := ih
      by_cases hc : c = '/'
      · refine ⟨[] :: front, last, ?_, ?_⟩
        · intro hnil
          rcases hlast hnil with rfl | hslash
          · exact .inr (by simp [hc])
          · exact .inr (by simp [List.getLast?_cons, hslash])
        · intro more hmore
          simp [parts, hc, hparts more hmore]
      · cases front with
        | nil =>
            refine ⟨[], c :: last, fun hnil => by simp at hnil, ?_⟩
            intro more hmore
            simp [parts, hc, hparts more hmore]
        | cons part front =>
            refine ⟨(c :: part) :: front, last, ?_, ?_⟩
            · intro hnil
              rcases hlast hnil with rfl | hslash
              · have hempty := hparts [] (by simp)
                simp [parts] at hempty
              · exact .inr (by simp [List.getLast?_cons, hslash])
            · intro more hmore
              simp [parts, hc, hparts more hmore]

/-! ## Places -/

/-- Where names lead from a place, whatever stands there. -/
def reach (place : Place) : List String → Place
  | [] => place
  | name :: rest =>
    if name = "." then reach place rest
    else if name = ".." then reach place.tail rest
    else reach (name :: place) rest

theorem reach_append (place : Place) (first second : List String) :
    reach place (first ++ second) = reach (reach place first) second := by
  induction first generalizing place with
  | nil => rfl
  | cons name first ih =>
      rw [List.cons_append, reach, reach]
      split
      · exact ih _
      · split
        · exact ih _
        · exact ih _

/-- Names that lead up to a directory from a place inside it do not depend on
the entry of the directory that the place is in. -/
theorem reach_eq_above {above dir : Place} {names : List String} {entry : String}
    (h : reach (above ++ entry :: dir) names = dir) (other : String) :
    reach (above ++ other :: dir) names = dir := by
  induction names generalizing above with
  | nil =>
      have hlength := congrArg List.length h
      simp only [reach, List.length_append, List.length_cons] at hlength
      omega
  | cons name rest ih =>
      rw [reach] at h ⊢
      by_cases hhere : name = "."
      · rw [if_pos hhere] at h ⊢
        exact ih h
      · rw [if_neg hhere] at h ⊢
        by_cases habove : name = ".."
        · rw [if_pos habove] at h ⊢
          cases above with
          | nil => exact h
          | cons inner above => exact ih h
        · rw [if_neg habove] at h ⊢
          have hinner : reach ((name :: above) ++ entry :: dir) rest = dir := h
          exact ih hinner

/-- Where a route starts. -/
def origin (home : Place) (r : Route) : Place := if r.absolute then [] else home

/-- The place that a route names, whatever stands there. -/
def place (home : Place) (r : Route) : Place := reach (origin home r) r.names

/-- A name with a number behind it is that of a file. -/
theorem generation_ne_of_ne_zero (name : String) {index : Nat} (hindex : index ≠ 0) :
    generation name index ≠ "." ∧ generation name index ≠ ".." := by
  obtain ⟨c, cs, hcs⟩ := List.exists_cons_of_ne_nil (Nat.toDigits_ne_nil (b := 10) (n := index))
  have hdigit : c.isDigit = true :=
    Nat.isDigit_of_mem_toDigits (by omega) (by omega) (hcs ▸ List.mem_cons_self)
  have hdecimal : decimal index = c :: cs := hcs
  have hdot : c ≠ '.' := by
    rintro rfl
    contradiction
  constructor
  · intro heq
    have htext := congrArg String.toList heq
    rw [toList_generation, suffix, if_neg hindex, hdecimal] at htext
    cases hname : name.toList <;> simp [hname] at htext
  · intro heq
    have htext := congrArg String.toList heq
    rw [toList_generation, suffix, if_neg hindex, hdecimal] at htext
    cases hname : name.toList with
    | nil => simp [hname, hdot] at htext
    | cons d ds => cases ds <;> simp [hname] at htext

/-- Behind a slash the number of a generation is a name of its own, inside
what the path names. -/
theorem place_generation_of_slash {path : String} (h : (route path).slash = true) {index : Nat}
    (hindex : index ≠ 0) (home : Place) :
    place home (route (generation path index)) =
      generation "" index :: place home (route path) := by
  simp only [route, beq_iff_eq] at h
  obtain ⟨cs, hcs⟩ := List.getLast?_eq_some_iff.1 h
  have hsuffix : parts (suffix index) = [suffix index] :=
    parts_of_notMem (slash_notMem_suffix index)
  have hne : suffix index ≠ [] := by simp [suffix, hindex]
  have hname : generation "" index = String.ofList (suffix index) := by
    rw [← String.toList_inj, toList_generation]
    simp
  have hnames : (route (generation path index)).names =
      (route path).names ++ [generation "" index] := by
    simp [route, toList_generation, hcs, parts_append_slash, hsuffix, hne, hname, parts]
  have habsolute : (route (generation path index)).absolute = (route path).absolute := by
    simp only [route, toList_generation, hcs]
    cases cs <;> simp
  obtain ⟨hhere, habove⟩ := generation_ne_of_ne_zero "" hindex
  rw [place, place, origin, origin, hnames, habsolute, reach_append]
  simp [reach, hhere, habove]

/-- The number of a generation goes to the last name of its path, or is a name
of its own if nothing or a slash is in front of it. -/
theorem exists_names_generation (path : String) :
    ∃ way last, ((route path).names = way ++ [last] ∧ (route path).slash = false ∨
        (route path).names = way ∧ last = "") ∧
      ∀ index, index ≠ 0 →
        (route (generation path index)).names = way ++ [generation last index] := by
  obtain ⟨front, last, -, hparts⟩ := exists_parts_append path.toList
  have hpath : parts path.toList = front ++ [last] := by simpa using hparts [] (by simp)
  refine ⟨(front.filter fun part => !part.isEmpty).map String.ofList, String.ofList last, ?_, ?_⟩
  · by_cases hlast : last = []
    · exact .inr (by simp [route, hpath, hlast])
    · refine .inl ⟨by simp [route, hpath, hlast], ?_⟩
      simp only [route, beq_eq_false_iff_ne]
      intro hslash
      obtain ⟨cs, hcs⟩ := List.getLast?_eq_some_iff.1 hslash
      rw [hcs, parts_append_slash] at hpath
      have hend := (List.append_inj' hpath rfl).2
      simp [parts, Ne.symm hlast] at hend
  · intro index hindex
    have hname : generation (String.ofList last) index = String.ofList (last ++ suffix index) := by
      rw [← String.toList_inj, toList_generation]
      simp
    have hne : last ++ suffix index ≠ [] := by simp [suffix, hindex]
    simp [route, toList_generation, hparts _ (slash_notMem_suffix index), hname, hne]

/-- All generations start where the path starts. -/
theorem absolute_generation (path : String) (index : Nat) :
    (route (generation path index)).absolute = (route path).absolute := by
  simp only [route, toList_generation]
  cases path.toList with
  | nil => by_cases hindex : index = 0 <;> simp [suffix, hindex]
  | cons c cs => rfl

theorem origin_generation (home : Place) (path : String) (index : Nat) :
    origin home (route (generation path index)) = origin home (route path) := by
  rw [origin, origin, absolute_generation]

/-- A path whose last name is that of a file, behind the names `way`. -/
structure Named (path : String) (way : List String) (name : String) : Prop where
  names_eq : (route path).names = way ++ [name]
  slash_eq : (route path).slash = false
  ne_here : name ≠ "."
  ne_above : name ≠ ".."

namespace Named

variable {path : String} {way : List String} {name : String}

/-- A generation has the number in its last name. -/
theorem names_generation (h : Named path way name) (index : Nat) :
    (route (generation path index)).names = way ++ [generation name index] := by
  obtain ⟨front, last, hlast, hparts⟩ := exists_parts_append path.toList
  have hpath : parts path.toList = front ++ [last] := by simpa using hparts [] (by simp)
  have hnames := h.names_eq
  have hslash := h.slash_eq
  simp only [route, beq_eq_false_iff_ne] at hnames hslash
  have hne : last ≠ [] := by
    intro hnil
    rcases hlast hnil with hempty | hend
    · rw [hempty] at hnames
      simp [parts] at hnames
    · exact hslash hend
  have hkeep : last.isEmpty = false := by simpa using hne
  rw [hpath] at hnames
  simp only [List.filter_append, List.map_append, List.filter_cons, hkeep, Bool.not_false, if_true,
    List.filter_nil, List.map_cons, List.map_nil] at hnames
  obtain ⟨hway, hname⟩ := List.append_inj' hnames rfl
  rw [List.cons.injEq] at hname
  have hgeneration : generation name index = String.ofList (last ++ suffix index) := by
    rw [← String.toList_inj, toList_generation, ← hname.1]
    simp
  simp [route, toList_generation, hparts _ (slash_notMem_suffix index), hgeneration, ← hway, hne]

/-- No generation has a slash behind its name. -/
theorem slash_generation (h : Named path way name) (index : Nat) :
    (route (generation path index)).slash = false := by
  by_cases hindex : index = 0
  · rw [hindex, generation_zero]
    exact h.slash_eq
  · have hne : decimal index ≠ [] := Nat.toDigits_ne_nil
    have hlast : ((decimal index).getLast hne).isDigit = true :=
      Nat.isDigit_of_mem_toDigits (by omega) (by omega) (List.getLast_mem hne)
    have hslash : (decimal index).getLast? ≠ some '/' := by
      rw [List.getLast?_eq_some_getLast hne, ne_eq, Option.some.injEq]
      intro heq
      rw [heq] at hlast
      contradiction
    simp only [route, toList_generation, suffix, hindex, if_false, beq_eq_false_iff_ne]
    rwa [List.getLast?_append, List.getLast?_cons, List.getLast?_eq_some_getLast hne,
      Option.getD_some, Option.some_or, ← List.getLast?_eq_some_getLast hne]

/-- The name of a generation is that of a file, too. -/
theorem generation_ne (h : Named path way name) (index : Nat) :
    generation name index ≠ "." ∧ generation name index ≠ ".." := by
  by_cases hindex : index = 0
  · rw [hindex, generation_zero]
    exact ⟨h.ne_here, h.ne_above⟩
  · exact generation_ne_of_ne_zero name hindex

/-- **The generations stand in one directory**, each under its own name. -/
theorem place_generation (h : Named path way name) (home : Place) (index : Nat) :
    place home (route (generation path index)) =
      generation name index :: reach (origin home (route path)) way := by
  obtain ⟨hhere, habove⟩ := h.generation_ne index
  rw [place, h.names_generation, origin_generation, reach_append]
  simp [reach, hhere, habove]

end Named

end Path

namespace FileTree

variable {t : FileTree}

/-! ## Walks -/

/-- **A walk gets to the place that its names spell, or nowhere.** -/
theorem walk_eq_ok {start place : Place} {names : List String}
    (h : t.walk start names = .ok place) : place = Path.reach start names := by
  induction names generalizing start with
  | nil =>
      rw [walk, Except.ok.injEq] at h
      exact h.symm
  | cons name rest ih =>
      rw [walk] at h
      rw [Path.reach]
      split at h
      · next hhere => rw [if_pos hhere]; exact ih h
      · next hhere =>
          rw [if_neg hhere]
          split at h
          · next habove => rw [if_pos habove]; exact ih h
          · next habove =>
              rw [if_neg habove]
              split at h
              · contradiction
              · contradiction
              · exact ih h
              · contradiction

/-- What was approached as an entry is the last name behind a walk. -/
theorem approach_eq_entry {r : Route} {name : String} {dir : Place}
    (h : t.approach r = .ok (.entry name dir)) :
    checkPath r = .ok () ∧ ∃ way, r.names = way ++ [name] ∧ name ≠ "." ∧ name ≠ ".." ∧
      t.walk (Path.origin t.home r) way = .ok dir := by
  rw [approach] at h
  split at h
  · contradiction
  · next hcheck =>
      refine ⟨hcheck, ?_⟩
      dsimp only at h
      split at h
      · split at h <;> simp at h
      · next last hlast =>
          split at h
          · contradiction
          · next walked hwalk =>
              split at h
              · simp at h
              · next hhere =>
                  split at h
                  · simp at h
                  · next habove =>
                      simp only [Except.ok.injEq, End.entry.injEq] at h
                      obtain ⟨rfl, rfl⟩ := h
                      obtain ⟨way, hway⟩ := List.getLast?_eq_some_iff.1 hlast
                      rw [hway, List.dropLast_concat] at hwalk
                      exact ⟨way, hway, hhere, habove, hwalk⟩

/-- What has a name is approached as an entry. -/
theorem approach_ne_here_of_names {r : Route} {way : List String} {name : String}
    (hnames : r.names = way ++ [name]) (hhere : name ≠ ".") (habove : name ≠ "..") (dir : Place) :
    t.approach r ≠ .ok (.here dir) := by
  rw [approach, hnames, List.getLast?_concat]
  dsimp only
  intro happroach
  repeat' split at happroach
  all_goals simp_all

theorem approach_ne_here {path : String} {way : List String} {name : String}
    (h : Path.Named path way name) (index : Nat) (dir : Place) :
    t.approach (Path.route (Path.generation path index)) ≠ .ok (.here dir) :=
  approach_ne_here_of_names (h.names_generation index) (h.generation_ne index).1
    (h.generation_ne index).2 dir

/-- What was approached as an entry stands at the place that the path names. -/
theorem place_of_approach {r : Route} {name : String} {dir : Place}
    (h : t.approach r = .ok (.entry name dir)) : Path.place t.home r = name :: dir := by
  obtain ⟨-, way, hnames, hhere, habove, hwalk⟩ := approach_eq_entry h
  rw [Path.place, hnames, Path.reach_append, ← walk_eq_ok hwalk]
  simp [Path.reach, hhere, habove]

end FileTree

end TraceLog
