import Mathlib
import CrewFlow.Proofs.Spec.Checks
/-!
# Rules for fields

What a field says, and the rules that a field has to keep, stated on the document and apart from the checks.
Every check of a field tells only of broken rules, and blames the place at which the rule is broken.
-/
set_option autoImplicit false

namespace CrewFlow.Spec

open Json (Value Fields)

/-! ## What a field says -/

def written (v : Value) (key : String) : Option Value := (v.get? key).filter fun x => !x.isNull

/-- The name that a value is: a text that is not blank, without the white space around it. -/
def nameIn : Value → Option String
  | .str s => if Text.isBlankText s then none else some (Text.trim s)
  | _ => none

def namesIn : Value → List String
  | .arr items => items.filterMap nameIn
  | .str s => [Text.trim s]
  | _ => []

def targetsIn : Value → List String
  | .obj fields => ((RouteTable.ofFields fields).toOption.map RouteTable.targets).getD []
  | _ => []

def said (v : Value) (key : String) : Option String := (written v key).bind nameIn

def listed (v : Value) (key : String) : List String := ((written v key).map namesIn).getD []

def routed (v : Value) : List String := ((written v "routes").map targetsIn).getD []

def kindSaid (v : Value) : Option MethodKind :=
  (said v "type").bind fun s => (MethodKind.ofText s).toOption

/-- Why a tool declaration is not one, if it is none. -/
def toolFault? (v : Value) : Option ToolFault :=
  match ToolSpec.declared v with
  | .error fault => some fault
  | .ok spec => spec.blankField?

/-! ## Rules -/

/-- What a field has to be. -/
inductive Rule where
  | text
  | textIfAny
  | flag
  | whole (least : Option Int)
  | count
  | names
  | tools
  | word (refused : String → Option UnknownWord)
  | model
  | routes

def refusal {ε α : Type} : Except ε α → Option ε
  | .error e => some e
  | .ok _ => none

/-- The ways in which a field breaks a rule: from the field on, the place of the fault, and the fault. -/
inductive Broken : Rule → Option Value → Path → Reason → Prop where
  | missing : Broken .text none [] .missing
  | blank {s : String} (empty : Text.isBlankText s = true) : Broken .text (some (.str s)) [] .empty
  | notText {rule : Rule} {v : Value} (textual : rule = .text ∨ rule = .textIfAny)
      (other : v.text? = none) : Broken rule (some v) [] (.wrongKind "a string" v.kind)
  | notFlag {v : Value} (other : v.bool? = none) :
      Broken .flag (some v) [] (.wrongKind "a boolean" v.kind)
  | notWhole {least : Option Int} {v : Value}
      (outside : ∀ n, v.int? = some n → n ≤ Entry.maxInt → ∃ low ∈ least, n < low) :
      Broken (.whole least) (some v) [] (.notInteger least v)
  | notCount {x : Option Value} {more : Path} {reason : Reason}
      (broken : Broken (.whole (some 1)) x more reason) : Broken .count x more reason
  | tooLarge {n : Int} (large : Entry.maxCount < n) :
      Broken .count (some (.num (.int n))) [] (.tooLarge Entry.maxCount n)
  | notNames {v : Value} (other : v.items? = none ∧ v.text? = none) :
      Broken .names (some v) [] (.wrongKind "a list of strings" v.kind)
  | nameless {items : List Value} {k : Nat} {v : Value} (item : items[k]? = some v)
      (none : nameIn v = none) : Broken .names (some (.arr items)) [.item k] .blankItem
  | notTools {v : Value} (other : v.items? = none) :
      Broken .tools (some v) [] (.wrongKind "a list" v.kind)
  | tool {items : List Value} {k : Nat} {v : Value} {fault : ToolFault} (item : items[k]? = some v)
      (faulty : toolFault? v = some fault) : Broken .tools (some (.arr items)) [.item k] (.tool fault)
  | unknownWord {refused : String → Option UnknownWord} {v : Value} {s : String} {u : UnknownWord}
      (said : nameIn v = some s) (unknown : refused s = some u) :
      Broken (.word refused) (some v) [] (.unknownWord u)
  | notModel {v : Value} (other : v.text? = none ∧ v.fields? = none) :
      Broken .model (some v) [] (.wrongKind "a model name or a mapping" v.kind)
  | badModel {fields : Fields} {cause : Json.DecodeError} (bad : LlmSpec.ofFields fields = .error cause) :
      Broken .model (some (.obj fields)) [] (.malformed cause)
  | notRoutes {v : Value} (other : v.fields? = none) :
      Broken .routes (some v) [] (.wrongKind "a mapping" v.kind)
  | badRoutes {fields : Fields} {cause : Json.DecodeError}
      (bad : RouteTable.ofFields fields = .error cause) :
      Broken .routes (some (.obj fields)) [] (.malformed cause)

def Blames (e : Entry) (key : String) (rule : Rule) (issue : Issue) : Prop :=
  ∃ more, issue.path = e.pathTo key ++ more ∧ Broken rule (e.get? key) more issue.reason

/-! ## Issues one by one -/

namespace Checked

variable {α β : Type} {P Q : Issue → Prop}

def Each (P : Issue → Prop) (c : Checked α) : Prop := ∀ issue ∈ c.issues, P issue

theorem Each.mono {c : Checked α} (each : c.Each P) (weaker : ∀ issue, P issue → Q issue) : c.Each Q :=
  fun issue told => weaker issue (each issue told)

@[simp]
theorem each_pure (a : α) : (pure a : Checked α).Each P := by
  intro issue told
  cases told

@[simp]
theorem each_bind {c : Checked α} {f : α → Checked β} :
    (c >>= f).Each P ↔ c.Each P ∧ (f c.value).Each P := by
  simp only [Each, issues_bind, List.mem_append, or_imp, forall_and]

@[simp]
theorem each_report {s : Section} {path : Path} {reason : Reason} :
    (report s path reason).Each P ↔ P ⟨s, path, reason⟩ := by
  simp [Each]

@[simp]
theorem each_reject {s : Section} {path : Path} {reason : Reason} :
    (reject s path reason : Checked (Option α)).Each P ↔ P ⟨s, path, reason⟩ := by
  simp [Each]

@[simp]
theorem each_reportIf {fault : Bool} {s : Section} {path : Path} {reason : Reason} :
    (reportIf fault s path reason).Each P ↔ (fault = true → P ⟨s, path, reason⟩) := by
  cases fault <;> simp [reportIf]

theorem each_forM {items : List α} {f : α → Checked PUnit} :
    (forM items f).Each P ↔ ∀ a ∈ items, (f a).Each P := by
  induction items with
  | nil => simp
  | cons a rest ih => simp only [List.forM_cons, each_bind, ih, List.forall_mem_cons]

end Checked

/-! ## Every check keeps to its rule -/

theorem head_of_drop {α : Type} {items rest : List α} {a : α} {i : Nat}
    (suffix : items.drop i = a :: rest) : items[i]? = some a ∧ items.drop (i + 1) = rest := by
  rw [← List.head?_drop, ← List.tail_drop, suffix]
  exact ⟨rfl, rfl⟩

namespace Entry

variable {e : Entry} {key : String}

theorem blames_reject {α : Type} {rule : Rule} {reason : Reason}
    (broken : Broken rule (e.get? key) [] reason) :
    (e.reject key reason : Checked (Option α)).Each (Blames e key rule) :=
  Checked.each_reject.mpr ⟨[], by simp, broken⟩

theorem blames_report {α : Type} {s : Section} {rule : Rule} {reason : Reason} {a : α}
    (broken : Broken rule (e.get? key) [] reason) :
    (do Checked.report s (e.pathTo key) reason; return a : Checked α).Each (Blames e key rule) := by
  rw [Checked.each_bind, Checked.each_report]
  exact ⟨⟨[], by simp, broken⟩, Checked.each_pure a⟩

theorem each_requiredText : (e.requiredText key).Each (Blames e key .text) := by
  unfold requiredText
  split
  · next s found =>
      split
      · next blank => exact blames_reject (found ▸ .blank blank)
      · exact Checked.each_pure _
  · next found => exact blames_reject (found ▸ .missing)
  · next v other found =>
      refine blames_reject (found ▸ .notText (.inl rfl) ?_)
      cases v <;> simp_all [Value.text?]

theorem each_optionalText : (e.optionalText key).Each (Blames e key .textIfAny) := by
  unfold optionalText
  split
  · exact Checked.each_pure _
  · exact Checked.each_pure _
  · next v other found =>
      refine blames_reject (found ▸ .notText (.inr rfl) ?_)
      cases v <;> simp_all [Value.text?]

theorem each_optionalBool : (e.optionalBool key).Each (Blames e key .flag) := by
  unfold optionalBool
  split
  · exact Checked.each_pure _
  · exact Checked.each_pure _
  · next v other found =>
      refine blames_report (found ▸ .notFlag ?_)
      cases v <;> simp_all [Value.bool?]

theorem each_optionalInt {least : Option Int} :
    (e.optionalInt key least).Each (Blames e key (.whole least)) := by
  unfold optionalInt
  split
  · exact Checked.each_pure _
  · next n found =>
      split
      · exact Checked.each_pure _
      · next outside =>
          refine blames_reject (found ▸ .notWhole ?_)
          rintro _ ⟨⟩ small
          cases least with
          | none => simp [small] at outside
          | some low => simpa [small] using outside
  · next v other found =>
      refine blames_reject (found ▸ .notWhole ?_)
      intro n whole
      cases v <;> simp_all [Value.int?]

theorem each_optionalPositive : (e.optionalPositive key).Each (Blames e key (.whole (some 1))) := by
  rw [optionalPositive, Checked.each_bind]
  exact ⟨each_optionalInt, Checked.each_pure _⟩

theorem get?_of_optionalInt {least : Option Int} {n : Int}
    (kept : (e.optionalInt key least).value = some n) : e.get? key = some (.num (.int n)) := by
  unfold optionalInt at kept
  split at kept
  · cases kept
  · next m found =>
      split at kept
      · cases kept
        exact found
      · cases kept
  · cases kept

theorem each_optionalCount : (e.optionalCount key).Each (Blames e key .count) := by
  rw [optionalCount, Checked.each_bind]
  refine ⟨each_optionalInt.mono ?_, ?_⟩
  · rintro issue ⟨more, path, broken⟩
    exact ⟨more, path, .notCount broken⟩
  · split
    · exact Checked.each_pure _
    · next n kept =>
        split
        · exact Checked.each_pure _
        · next large => exact blames_reject (get?_of_optionalInt kept ▸ .tooLarge (by omega))

theorem nameItems_cons (i : Nat) (v : Value) (vs : List Value) :
    e.nameItems key i (v :: vs) =
      (nameIn v).elim
        (do
          Checked.report e.area (e.pathTo key ++ [.item i]) .blankItem
          e.nameItems key (i + 1) vs)
        fun name => do
          let rest ← e.nameItems key (i + 1) vs
          return name :: rest := by
  cases v with
  | str s =>
      simp only [nameItems, nameIn]
      split <;> rfl
  | _ => rfl

theorem each_nameItems {items : List Value} (list : e.get? key = some (.arr items)) :
    ∀ {rest : List Value} {i : Nat}, items.drop i = rest →
      (e.nameItems key i rest).Each (Blames e key .names) := by
  intro rest
  induction rest with
  | nil => exact fun _ => Checked.each_pure _
  | cons v vs ih =>
      intro i suffix
      obtain ⟨here, onward⟩ := head_of_drop suffix
      rw [nameItems_cons]
      cases named : nameIn v with
      | none =>
          have broken : Broken .names (e.get? key) [.item i] .blankItem := list ▸ .nameless here named
          simp only [Option.elim, Checked.each_bind, Checked.each_report]
          exact ⟨⟨_, rfl, broken⟩, ih onward⟩
      | some name =>
          simp only [Option.elim, Checked.each_bind]
          exact ⟨ih onward, Checked.each_pure _⟩

theorem value_nameItems (items : List Value) (i : Nat) :
    (e.nameItems key i items).value = items.filterMap nameIn := by
  induction items generalizing i with
  | nil => rfl
  | cons v vs ih =>
      rw [nameItems_cons, List.filterMap_cons]
      cases nameIn v with
      | none => exact ih (i + 1)
      | some name => simp [ih]

theorem each_nameList : (e.nameList key).Each (Blames e key .names) := by
  unfold nameList
  split
  · exact Checked.each_pure _
  · next items found =>
      rw [Checked.each_bind]
      exact ⟨each_nameItems found List.drop_zero, Checked.each_pure _⟩
  · exact Checked.each_pure _
  · next v notList notText found =>
      refine blames_reject (found ▸ .notNames ?_)
      cases v <;> simp_all [Value.items?, Value.text?]

theorem toolItems_cons (i : Nat) (v : Value) (vs : List Value) :
    (∃ fault, toolFault? v = some fault ∧
      e.toolItems i (v :: vs) = (do
        Checked.report .tools (e.pathTo "tools" ++ [.item i]) (.tool fault)
        e.toolItems (i + 1) vs)) ∨
    ∃ spec, e.toolItems i (v :: vs) = (do
      let rest ← e.toolItems (i + 1) vs
      return spec :: rest) := by
  rw [toolItems, toolFault?]
  cases ToolSpec.declared v with
  | error fault => exact .inl ⟨fault, rfl, rfl⟩
  | ok spec =>
      simp only [bind, Except.bind]
      cases faulty : spec.blankField? with
      | some fault => exact .inl ⟨fault, rfl, rfl⟩
      | none => exact .inr ⟨spec, rfl⟩

theorem each_toolItems {items : List Value} (list : e.get? "tools" = some (.arr items)) :
    ∀ {rest : List Value} {i : Nat}, items.drop i = rest →
      (e.toolItems i rest).Each (Blames e "tools" .tools) := by
  intro rest
  induction rest with
  | nil => exact fun _ => Checked.each_pure _
  | cons v vs ih =>
      intro i suffix
      obtain ⟨here, onward⟩ := head_of_drop suffix
      rcases toolItems_cons (e := e) i v vs with ⟨fault, faulty, step⟩ | ⟨spec, step⟩
      · have broken : Broken .tools (e.get? "tools") [.item i] (.tool fault) := list ▸ .tool here faulty
        rw [step, Checked.each_bind, Checked.each_report]
        exact ⟨⟨_, rfl, broken⟩, ih onward⟩
      · rw [step, Checked.each_bind]
        exact ⟨ih onward, Checked.each_pure _⟩

theorem each_tools : e.tools.Each (Blames e "tools" .tools) := by
  unfold tools
  split
  · exact Checked.each_pure _
  · next items found => exact each_toolItems found List.drop_zero
  · next v other found =>
      refine blames_report (found ▸ .notTools ?_)
      cases v <;> simp_all [Value.items?]

theorem value_requiredText : (e.requiredText key).value = (e.get? key).bind nameIn := by
  unfold requiredText
  split
  · next s found =>
      rw [found]
      simp only [Option.bind_some, nameIn]
      split <;> rfl
  · next found => rw [found]; rfl
  · next v other found =>
      rw [found]
      cases v <;> simp_all [nameIn] <;> rfl

theorem value_optionalText : (e.optionalText key).value = (e.get? key).bind nameIn := by
  unfold optionalText
  split
  · next found => rw [found]; rfl
  · next s found => rw [found]; rfl
  · next v other found =>
      rw [found]
      cases v <;> simp_all [nameIn] <;> rfl

theorem value_nameList : (e.nameList key).value.getD [] = ((e.get? key).map namesIn).getD [] := by
  unfold nameList
  split
  · next found => rw [found]; rfl
  · next items found => simp [found, namesIn, value_nameItems]
  · next s found => rw [found]; rfl
  · next v notList notText found =>
      rw [found]
      cases v <;> simp_all [namesIn] <;> rfl

theorem value_routes : e.routes.value.targets = ((e.get? "routes").map targetsIn).getD [] := by
  unfold routes
  split
  · next found => rw [found]; rfl
  · next fields found =>
      simp only [found, Option.map_some, Option.getD_some, targetsIn]
      cases RouteTable.ofFields fields <;> rfl
  · next v other found =>
      rw [found]
      cases v <;> simp_all [targetsIn] <;> rfl

theorem broken_word {α : Type} {read : String → Except UnknownWord α} {s : String} {u : UnknownWord}
    (given : (e.get? key).bind nameIn = some s) (unknown : read s = .error u) :
    Broken (.word fun s => refusal (read s)) (e.get? key) [] (.unknownWord u) := by
  obtain ⟨v, found, name⟩ := Option.bind_eq_some_iff.mp given
  rw [found]
  exact .unknownWord name (by rw [unknown, refusal])

theorem each_word {α : Type} {read : String → Except UnknownWord α} {other : α} :
    (e.word key read other).Each fun issue =>
      Blames e key .textIfAny issue ∨ Blames e key (.word fun s => refusal (read s)) issue := by
  rw [word, Checked.each_bind]
  refine ⟨each_optionalText.mono fun _ => .inl, ?_⟩
  cases said : (e.optionalText key).value with
  | none => exact Checked.each_pure _
  | some s =>
      cases unknown : read s with
      | ok a => simp only [unknown]; exact Checked.each_pure _
      | error u =>
          rw [value_optionalText] at said
          simp only [unknown]
          exact (blames_report (broken_word said unknown)).mono fun _ => .inr

theorem each_llm : e.llm.Each (Blames e "llm" .model) := by
  unfold llm
  split
  · exact Checked.each_pure _
  · exact Checked.each_pure _
  · next fields found =>
      split
      · exact Checked.each_pure _
      · next cause bad => exact blames_reject (found ▸ .badModel bad)
  · next v notText notFields found =>
      refine blames_reject (found ▸ .notModel ?_)
      cases v <;> simp_all [Value.text?, Value.fields?]

theorem each_routes : e.routes.Each (Blames e "routes" .routes) := by
  unfold routes
  split
  · exact Checked.each_pure _
  · next fields found =>
      split
      · exact Checked.each_pure _
      · next cause bad => exact blames_report (found ▸ .badRoutes bad)
  · next v other found =>
      refine blames_report (found ▸ .notRoutes ?_)
      cases v <;> simp_all [Value.fields?]

end Entry

end CrewFlow.Spec
