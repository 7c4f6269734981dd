import Mathlib
import CrewFlow.Crew.Basic
/-!
# Texts of fingerprints

The fingerprints of tasks and crews are digests of texts whose parts are joined by bars. A text tells its parts apart
only as far as they have no bars themselves, and a crew's text does not tell a manager from a last agent, or a role
from a task that reads alike. Beyond that, equal texts are those of equal parts.
-/
set_option autoImplicit false

namespace CrewFlow

/-! ## Digests -/

namespace Digest

/-- Thirty-two hexadecimal digits. -/
structure IsDigest (s : List Char) : Prop where
  length : s.length = 32
  digits : ∀ c ∈ s, c ∈ "0123456789abcdef".toList

theorem length_littleEndian (value n : Nat) : (littleEndian value n).length = n := by
  induction n generalizing value with
  | zero => rfl
  | succ n ih => rw [littleEndian, List.length_cons, ih]

theorem digit_mem : ∀ n < 16, Char.ofNat (if n < 10 then 48 + n else 87 + n) ∈ "0123456789abcdef".toList := by
  decide

theorem mem_byteText {b : UInt8} {c : Char} (member : c ∈ byteText b) : c ∈ "0123456789abcdef".toList := by
  have small : b.toNat < 256 := b.toNat_lt
  simp only [byteText, List.mem_cons, List.not_mem_nil, or_false] at member
  rcases member with rfl | rfl
  · exact digit_mem _ (by omega)
  · exact digit_mem _ (by omega)

theorem length_bytesText (bytes : List UInt8) : (bytes.flatMap byteText).length = 2 * bytes.length := by
  induction bytes with
  | nil => rfl
  | cons b bytes ih =>
      rw [List.flatMap_cons, List.length_append, ih, List.length_cons]
      simp only [byteText, List.length_cons, List.length_nil]
      omega

theorem isDigest_md5 (s : String) : IsDigest (md5 s).toList := by
  rw [md5, String.toList_ofList]
  constructor
  · simp only [List.flatMap_cons, List.flatMap_nil, List.length_append, length_bytesText, length_littleEndian,
      List.length_nil]
  · intro c member
    obtain ⟨w, -, inner⟩ := List.mem_flatMap.mp member
    obtain ⟨b, -, digit⟩ := List.mem_flatMap.mp inner
    exact mem_byteText digit

theorem IsDigest.bar_not_mem {s : List Char} (digest : IsDigest s) : '|' ∉ s := by
  intro member
  have digit := digest.digits '|' member
  revert digit
  decide

/-- Different texts with one digest. -/
structure Collision (x y : String) : Prop where
  apart : x ≠ y
  same : md5 x = md5 y

end Digest

/-! ## Tasks -/

namespace CrewTask

/-- The description of one task goes on behind a bar where that of the other ends, and what it has beyond is the
beginning of what the other is expected to yield. -/
def Shifted (t u : CrewTask) : Prop :=
  ∃ m, t.description = u.description ++ "|" ++ m ∧ u.expectedOutput = m ++ "|" ++ t.expectedOutput

theorem toList_keySource (t : CrewTask) :
    t.keySource.toList = t.description.toList ++ '|' :: t.expectedOutput.toList := by
  rw [keySource, String.toList_append, String.toList_append, List.append_assoc]
  rfl

theorem keySource_eq_of_shifted {t u : CrewTask} (shifted : Shifted t u) : t.keySource = u.keySource := by
  obtain ⟨m, description, expected⟩ := shifted
  simp only [keySource, description, expected, String.append_assoc]

/-- Texts that are cut at a bar are the same when they are cut at the same place or one has the other's bar before
its own. -/
theorem append_bar_cases {a b x y : List Char} (same : a ++ '|' :: x = b ++ '|' :: y) :
    a = b ∧ x = y ∨ (∃ m, a = b ++ '|' :: m ∧ y = m ++ '|' :: x) ∨ ∃ m, b = a ++ '|' :: m ∧ x = m ++ '|' :: y := by
  rcases List.append_eq_append_iff.mp same with ⟨more, longer, rest⟩ | ⟨more, longer, rest⟩
  · cases more with
    | nil =>
        left
        rw [List.append_nil] at longer
        exact ⟨longer.symm, (List.cons.inj rest).2⟩
    | cons c m =>
        obtain ⟨rfl, tail⟩ := List.cons.inj rest
        exact .inr (.inr ⟨m, longer, tail⟩)
  · cases more with
    | nil =>
        left
        rw [List.append_nil] at longer
        exact ⟨longer, (List.cons.inj rest).2.symm⟩
    | cons c m =>
        obtain ⟨rfl, tail⟩ := List.cons.inj rest
        exact .inr (.inl ⟨m, longer, tail⟩)

theorem shifted_of_toList {t u : CrewTask} {m : List Char}
    (description : t.description.toList = u.description.toList ++ '|' :: m)
    (expected : u.expectedOutput.toList = m ++ '|' :: t.expectedOutput.toList) : Shifted t u := by
  refine ⟨String.ofList m, ?_, ?_⟩
  · rw [← String.toList_inj, description]
    simp
  · rw [← String.toList_inj, expected]
    simp

theorem keySource_eq_iff {t u : CrewTask} :
    t.keySource = u.keySource ↔
      t.description = u.description ∧ t.expectedOutput = u.expectedOutput ∨ Shifted t u ∨ Shifted u t := by
  constructor
  · intro same
    rw [← String.toList_inj, toList_keySource, toList_keySource] at same
    rcases append_bar_cases same with ⟨description, expected⟩ | ⟨m, description, expected⟩ | ⟨m, description, expected⟩
    · exact .inl ⟨String.toList_inj.mp description, String.toList_inj.mp expected⟩
    · exact .inr (.inl (shifted_of_toList description expected))
    · exact .inr (.inr (shifted_of_toList description expected))
  · rintro (⟨description, expected⟩ | shifted | shifted)
    · rw [keySource, keySource, description, expected]
    · exact keySource_eq_of_shifted shifted
    · exact (keySource_eq_of_shifted shifted).symm

def keyPart (t : CrewTask) : String := t.name ++ ":" ++ t.key

theorem toList_keyPart (t : CrewTask) : t.keyPart.toList = t.name.toList ++ ':' :: t.key.toList := by
  rw [keyPart, String.toList_append, String.toList_append, List.append_assoc]
  rfl

/-- The key in a task's part has always the same length, so the part tells name and key apart. -/
theorem keyPart_inj {t u : CrewTask} (same : t.keyPart = u.keyPart) : t.name = u.name ∧ t.key = u.key := by
  rw [← String.toList_inj, toList_keyPart, toList_keyPart] at same
  -- The name may have colons itself, so the parts are cut by the length of what is behind it.
  have level : (':' :: t.key.toList).length = (':' :: u.key.toList).length := by
    rw [List.length_cons, List.length_cons, key, key, (Digest.isDigest_md5 _).length, (Digest.isDigest_md5 _).length]
  obtain ⟨name, rest⟩ := List.append_inj' same level
  exact ⟨String.toList_inj.mp name, String.toList_inj.mp (List.cons.inj rest).2⟩

/-- A text that reads as the part of a task. -/
def ReadsAsPart (s : String) : Prop :=
  ∃ name key, s.toList = name ++ ':' :: key ∧ Digest.IsDigest key

theorem readsAsPart_keyPart (t : CrewTask) : ReadsAsPart t.keyPart :=
  ⟨_, _, t.toList_keyPart, Digest.isDigest_md5 _⟩

end CrewTask

/-! ## Crews -/

namespace Crew

/-- The roles of a crew, the manager's behind those of the agents. -/
def roster (c : Crew) : List String := c.agents.map (·.role) ++ (c.manager.map (·.role)).toList

def marks (c : Crew) : List (String × String) := c.tasks.map fun t => (t.name, t.key)

/-- The parts of a crew's text, each cut at its bars. No parts leave the same text as an empty one. -/
def keyPieces (c : Crew) : List (List Char) :=
  if c.keyParts = [] then [[]] else c.keyParts.flatMap fun part => part.toList.splitOn '|'

/-- A crew whose roles and task names have no bars, and whose roles are not empty and do not read as tasks. -/
structure Plain (c : Crew) : Prop where
  roles : ∀ role ∈ c.roster, role ≠ "" ∧ '|' ∉ role.toList ∧ ¬CrewTask.ReadsAsPart role
  names : ∀ t ∈ c.tasks, '|' ∉ t.name.toList

section Pieces
variable {c d : Crew}

theorem keyParts_eq (c : Crew) : c.keyParts = c.roster ++ c.tasks.map CrewTask.keyPart := rfl

theorem splitOn_intercalate_bars {parts : List (List Char)} (some_part : parts ≠ []) :
    (['|'].intercalate parts).splitOn '|' = parts.flatMap (List.splitOn '|') := by
  induction parts with
  | nil => exact absurd rfl some_part
  | cons part parts ih =>
      cases parts with
      | nil => simp [List.intercalate]
      | cons next parts =>
          rw [List.intercalate_cons_of_ne_nil (List.cons_ne_nil _ _), List.append_assoc, List.singleton_append,
            List.splitOn_append_cons_self, ih (List.cons_ne_nil _ _)]
          rfl

theorem splitOn_keySource (c : Crew) : c.keySource.toList.splitOn '|' = c.keyPieces := by
  rw [keySource, String.toList_intercalate, keyPieces]
  split
  · next empty => simp [empty]
  · next parts =>
      have given : c.keyParts.map String.toList ≠ [] := by simpa using parts
      exact (splitOn_intercalate_bars given).trans (List.flatMap_map _ _ _)

theorem keySource_eq_iff : c.keySource = d.keySource ↔ c.keyPieces = d.keyPieces := by
  rw [← splitOn_keySource, ← splitOn_keySource]
  refine ⟨fun same => by rw [same], fun same => ?_⟩
  have joined := congrArg (List.intercalate ['|']) same
  rw [List.intercalate_splitOn, List.intercalate_splitOn] at joined
  exact String.toList_inj.mp joined

theorem Plain.bar_not_mem (plain : c.Plain) {part : String} (member : part ∈ c.keyParts) : '|' ∉ part.toList := by
  rw [keyParts_eq, List.mem_append] at member
  rcases member with role | task
  · exact (plain.roles part role).2.1
  · obtain ⟨t, there, rfl⟩ := List.mem_map.mp task
    rw [CrewTask.toList_keyPart, List.mem_append, List.mem_cons, not_or, not_or]
    exact ⟨plain.names t there, by decide, (Digest.isDigest_md5 _).bar_not_mem⟩

theorem Plain.ne_empty (plain : c.Plain) {part : String} (member : part ∈ c.keyParts) : part ≠ "" := by
  rw [keyParts_eq, List.mem_append] at member
  rcases member with role | task
  · exact (plain.roles part role).1
  · obtain ⟨t, -, rfl⟩ := List.mem_map.mp task
    intro empty
    have letters := t.toList_keyPart
    rw [empty] at letters
    simp at letters

theorem Plain.keyPieces_eq (plain : c.Plain) (parts : c.keyParts ≠ []) :
    c.keyPieces = c.keyParts.map String.toList := by
  rw [keyPieces, if_neg parts, List.map_eq_flatMap]
  exact List.flatMap_congr fun part member => List.splitOn_eq_singleton (plain.bar_not_mem member)

theorem Plain.keyPieces_ne (plain : c.Plain) (parts : c.keyParts ≠ []) : c.keyPieces ≠ [[]] := by
  rw [plain.keyPieces_eq parts]
  intro one
  obtain ⟨part, whole, empty⟩ := List.map_eq_singleton_iff.mp one
  exact plain.ne_empty (whole ▸ List.mem_singleton_self part) (String.toList_eq_nil_iff.mp empty)

theorem Plain.keyParts_eq_of_keyPieces (left : c.Plain) (right : d.Plain) (same : c.keyPieces = d.keyPieces) :
    c.keyParts = d.keyParts := by
  by_cases first : c.keyParts = []
  · by_cases second : d.keyParts = []
    · rw [first, second]
    · rw [keyPieces, if_pos first] at same
      exact absurd same.symm (right.keyPieces_ne second)
  · by_cases second : d.keyParts = []
    · rw [keyPieces.eq_1 d, if_pos second] at same
      exact absurd same (left.keyPieces_ne first)
    · rw [left.keyPieces_eq first, right.keyPieces_eq second] at same
      exact List.map_injective_iff.mpr (fun _ _ => String.toList_inj.mp) same

/-- No role of a plain crew reads as a task, so roles and tasks are told apart by how they read. -/
theorem Plain.roster_eq_filter [DecidablePred CrewTask.ReadsAsPart] (plain : c.Plain) :
    c.roster = c.keyParts.filter (¬CrewTask.ReadsAsPart ·) ∧
      c.tasks.map CrewTask.keyPart = c.keyParts.filter (CrewTask.ReadsAsPart ·) := by
  have roles : ∀ role ∈ c.roster, ¬CrewTask.ReadsAsPart role := fun role member => (plain.roles role member).2.2
  have tasks : ∀ part ∈ c.tasks.map CrewTask.keyPart, CrewTask.ReadsAsPart part := by
    intro part member
    obtain ⟨t, -, rfl⟩ := List.mem_map.mp member
    exact t.readsAsPart_keyPart
  rw [keyParts_eq, List.filter_append, List.filter_append]
  -- Each filter takes one half whole and nothing of the other.
  constructor
  · rw [List.filter_eq_self.mpr (by simpa using roles), List.filter_eq_nil_iff.mpr (by simpa using tasks),
      List.append_nil]
  · rw [List.filter_eq_nil_iff.mpr (by simpa using roles), List.filter_eq_self.mpr (by simpa using tasks),
      List.nil_append]

theorem marks_eq_of_keyParts {ts us : List CrewTask} (same : ts.map CrewTask.keyPart = us.map CrewTask.keyPart) :
    (ts.map fun t => (t.name, t.key)) = us.map fun t => (t.name, t.key) := by
  induction ts generalizing us with
  | nil =>
      rw [List.map_nil, eq_comm, List.map_eq_nil_iff] at same
      rw [same]
  | cons t ts ih =>
      cases us with
      | nil => cases same
      | cons u us =>
          obtain ⟨first, rest⟩ := List.cons.inj same
          obtain ⟨name, key⟩ := CrewTask.keyPart_inj first
          rw [List.map_cons, List.map_cons, ih rest, name, key]

theorem keyPart_of_marks {ts us : List CrewTask}
    (same : (ts.map fun t => (t.name, t.key)) = us.map fun t => (t.name, t.key)) :
    ts.map CrewTask.keyPart = us.map CrewTask.keyPart := by
  have glued := congrArg (List.map fun mark : String × String => mark.1 ++ ":" ++ mark.2) same
  rwa [List.map_map, List.map_map] at glued

theorem Plain.keySource_eq_iff (left : c.Plain) (right : d.Plain) :
    c.keySource = d.keySource ↔ c.roster = d.roster ∧ c.marks = d.marks := by
  classical
  constructor
  · intro same
    have parts := left.keyParts_eq_of_keyPieces right (Crew.keySource_eq_iff.mp same)
    obtain ⟨leftRoles, leftTasks⟩ := left.roster_eq_filter
    obtain ⟨rightRoles, rightTasks⟩ := right.roster_eq_filter
    refine ⟨?_, marks_eq_of_keyParts ?_⟩
    · rw [leftRoles, rightRoles, parts]
    · rw [leftTasks, rightTasks, parts]
  · rintro ⟨roles, marks⟩
    rw [keySource, keySource, keyParts_eq, keyParts_eq, roles, keyPart_of_marks marks]

theorem led_alike_iff (roles : c.roster = d.roster) :
    c.manager.isSome = d.manager.isSome ↔
      c.agents.map (·.role) = d.agents.map (·.role) ∧ c.manager.map (·.role) = d.manager.map (·.role) := by
  rw [roster, roster] at roles
  constructor
  · intro alike
    have level : (c.manager.map (·.role)).toList.length = (d.manager.map (·.role)).toList.length := by
      cases first : c.manager <;> cases second : d.manager <;> simp_all
    obtain ⟨agents, managers⟩ := List.append_inj' roles level
    refine ⟨agents, ?_⟩
    cases first : c.manager <;> cases second : d.manager <;> simp_all
  · rintro ⟨-, managers⟩
    simpa using congrArg Option.isSome managers

end Pieces

/-- Which tasks and crews share the text of their fingerprint. For tasks: those with one description and one expected
output, and those in which a bar moves the border between the two. For crews: those whose parts, cut at their bars,
are the same. Plain crews with one text have the same roles and the same names and keys of tasks, and the same agents
and manager when both have a manager or none has. Equal fingerprints of other plain crews are collisions. -/
theorem fingerprint_texts_tell_apart :
    (∀ t u : CrewTask, t.keySource = u.keySource ↔
      t.description = u.description ∧ t.expectedOutput = u.expectedOutput ∨ t.Shifted u ∨ u.Shifted t) ∧
    (∀ c d : Crew, c.keySource = d.keySource ↔ c.keyPieces = d.keyPieces) ∧
    ∀ c d : Crew, c.Plain → d.Plain →
      (c.keySource = d.keySource ↔ c.roster = d.roster ∧ c.marks = d.marks) ∧
      (c.roster = d.roster → (c.manager.isSome = d.manager.isSome ↔
        c.agents.map (·.role) = d.agents.map (·.role) ∧ c.manager.map (·.role) = d.manager.map (·.role))) ∧
      (c.key = d.key → c.roster = d.roster ∧ c.marks = d.marks ∨ Digest.Collision c.keySource d.keySource) := by
  refine ⟨fun t u => CrewTask.keySource_eq_iff, fun c d => keySource_eq_iff, fun c d left right => ?_⟩
  refine ⟨left.keySource_eq_iff right, led_alike_iff, fun same => ?_⟩
  by_cases texts : c.keySource = d.keySource
  · exact .inl ((left.keySource_eq_iff right).mp texts)
  · exact .inr ⟨texts, same⟩

def agentWithRole (role : String) : Agent where
  role
  goal := ""
  backstory := ""
  model := ⟨"", fun _ => ⟨0, .ok ""⟩⟩
  tools := []
  limits := .default
  runsCode := false

def team (roles : List String) (manager : Option String) (tasks : List CrewTask) : Crew :=
  { name := "team", agents := roles.map agentWithRole, tasks, process := .sequential
    manager := manager.map agentWithRole, embedder := none }

def chore (name description expected : String) : CrewTask :=
  ⟨name, description, expected, none, [], [], none, false⟩

theorem not_readsAsPart_of_short {s : String} (short : s.length < 33) : ¬CrewTask.ReadsAsPart s := by
  rintro ⟨name, key, whole, digest⟩
  have length := congrArg List.length whole
  rw [String.length_toList, List.length_append, List.length_cons, digest.length] at length
  omega

theorem plain_team (name : String) (bare : '|' ∉ name.toList) :
    (team ["me"] (some "you") [chore name "look" "it"]).Plain where
  roles role member := by
    simp only [roster, team, List.map_cons, List.map_nil, Option.map_some, Option.toList_some, List.singleton_append,
      List.mem_cons, List.not_mem_nil, or_false] at member
    rcases member with rfl | rfl
    · exact ⟨by decide, by decide, not_readsAsPart_of_short (by decide)⟩
    · exact ⟨by decide, by decide, not_readsAsPart_of_short (by decide)⟩
  names t member := by
    cases List.mem_singleton.mp member
    exact bare

theorem drafting_told_from_checking :
    (team ["me"] (some "you") [chore "draft" "look" "it"]).Plain ∧
      (team ["me"] (some "you") [chore "check" "look" "it"]).Plain ∧
      (team ["me"] (some "you") [chore "draft" "look" "it"]).keySource ≠
        (team ["me"] (some "you") [chore "check" "look" "it"]).keySource := by
  have drafting := plain_team "draft" (by decide)
  have checking := plain_team "check" (by decide)
  refine ⟨drafting, checking, fun same => ?_⟩
  obtain ⟨-, marks⟩ := ((fingerprint_texts_tell_apart.2.2 _ _ drafting checking).1).mp same
  have names := congrArg (List.map Prod.fst) marks
  revert names
  decide

/-- One text for two tasks whose border is moved by a bar, for a crew with an agent more and one with that agent as
its manager, for roles with a bar and apart, for a role that reads as a task and that task, and for no part at all
and an empty role. -/
theorem one_text_for_different_parts :
    ((chore "t" "a|b" "c").keySource = (chore "t" "a" "b|c").keySource ∧
      (chore "t" "a|b" "c").description ≠ (chore "t" "a" "b|c").description) ∧
    ((team ["me", "you"] none []).keySource = (team ["me"] (some "you") []).keySource ∧
      (team ["me", "you"] none []).manager.isSome ≠ (team ["me"] (some "you") []).manager.isSome) ∧
    ((team ["me|you"] none []).keySource = (team ["me", "you"] none []).keySource ∧
      (team ["me|you"] none []).roster ≠ (team ["me", "you"] none []).roster) ∧
    ((team ["me", "t" ++ ":" ++ (chore "t" "a" "b").key] none []).keySource =
        (team ["me"] none [chore "t" "a" "b"]).keySource ∧
      (team ["me", "t" ++ ":" ++ (chore "t" "a" "b").key] none []).marks ≠
        (team ["me"] none [chore "t" "a" "b"]).marks) ∧
    ((team [] none []).keySource = (team [""] none []).keySource ∧
      (team [] none []).roster ≠ (team [""] none []).roster) := by
  refine ⟨⟨by decide, by decide⟩, ⟨rfl, by decide⟩, ⟨by decide, by decide⟩, ⟨rfl, nofun⟩, ⟨rfl, by decide⟩⟩

end Crew

end CrewFlow
