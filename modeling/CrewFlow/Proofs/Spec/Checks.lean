import Mathlib
import CrewFlow.Spec.Validate
import CrewFlow.Proofs.Text.Search
/-!
# Clean checks

What is known of a field, an entry and a section when nothing was found wrong with it. A walk through a
section that finds nothing wrong keeps every entry, under names that are all different.
-/
set_option autoImplicit false

namespace CrewFlow.Spec

open Json (Value Fields)

/-! ## Names -/

/-- A name as it is kept: not empty, and with no white space around it. -/
def Trimmed (s : String) : Prop := s ≠ "" ∧ Text.trim s = s

instance (s : String) : Decidable (Trimmed s) := inferInstanceAs (Decidable (_ ∧ _))

theorem trimmed_trim {s : String} (shown : Text.isBlankText s = false) : Trimmed (Text.trim s) := by
  refine ⟨?_, Text.trim_trim s⟩
  rw [Ne, Text.trim_eq_empty_iff, shown]
  exact Bool.false_ne_true

theorem trimmed_of_shown {s : String} (nonempty : s ≠ "") (shown : ∀ c ∈ s.toList, Text.isBlank c = false) :
    Trimmed s := by
  refine ⟨nonempty, Text.trim_eq_self ?_ ?_⟩
  · intro c first
    exact shown c (List.mem_of_mem_head? first)
  · intro c last
    exact shown c (List.mem_of_mem_getLast? last)

theorem trimmed_numbered (n : Nat) : Trimmed ("crew_" ++ toString n) := by
  apply trimmed_of_shown
  · intro empty
    have lengths := congrArg String.length empty
    simp at lengths
  · intro c member
    rw [String.toList_append, List.mem_append] at member
    rcases member with front | number
    · have word : ∀ d ∈ "crew_".toList, Text.isBlank d = false := by simp [Text.isBlank]
      exact word c front
    · have digits : (toString n).toList = Nat.toDigits 10 n := by simp
      rw [digits] at number
      exact Text.isBlank_of_isDigit (Nat.isDigit_of_mem_toDigits (by decide) (by decide) number)

/-! ## Checks -/

namespace Checked

@[simp]
theorem issues_report (s : Section) (path : Path) (reason : Reason) :
    (report s path reason).issues = [⟨s, path, reason⟩] := rfl

@[simp]
theorem issues_reject {α : Type} (s : Section) (path : Path) (reason : Reason) :
    (reject s path reason : Checked (Option α)).issues = [⟨s, path, reason⟩] := rfl

theorem issues_reportIf (fault : Bool) (s : Section) (path : Path) (reason : Reason) :
    (reportIf fault s path reason).issues = [] ↔ fault = false := by
  cases fault <;> simp [reportIf]

theorem clean_bind {α β : Type} {c : Checked α} {f : α → Checked β} :
    (c >>= f).issues = [] ↔ c.issues = [] ∧ (f c.value).issues = [] := by
  rw [issues_bind, List.append_eq_nil_iff]

end Checked

namespace Entry

variable {e : Entry} {key : String}

@[simp]
theorem issues_reject {α : Type} (reason : Reason) :
    (e.reject key reason : Checked (Option α)).issues = [⟨e.area, e.pathTo key, reason⟩] := rfl

theorem requiredText_clean (clean : (e.requiredText key).issues = []) :
    ∃ s, (e.requiredText key).value = some s ∧ Trimmed s := by
  unfold requiredText at clean ⊢
  split at clean
  · next s found =>
      split at clean
      · simp at clean
      · next shown =>
          rw [if_neg shown]
          exact ⟨_, rfl, trimmed_trim (by simpa using shown)⟩
  · simp at clean
  · simp at clean

theorem trimmed_of_optionalText {s : String} (kept : (e.optionalText key).value = some s) :
    Trimmed s := by
  unfold optionalText at kept
  split at kept
  · cases kept
  · next s found =>
      split at kept
      · cases kept
      · next shown =>
          cases kept
          exact trimmed_trim (by simpa using shown)
  · cases kept

theorem least_le_of_optionalInt {least n : Int}
    (kept : (e.optionalInt key (some least)).value = some n) : least ≤ n := by
  unfold optionalInt at kept
  split at kept
  · cases kept
  · next m found =>
      split at kept
      · next within =>
          cases kept
          simpa using within.2
      · cases kept
  · cases kept

theorem le_of_optionalPositive {n : Nat} (kept : (e.optionalPositive key).value = some n) : 1 ≤ n := by
  obtain ⟨m, found, rfl⟩ := Option.map_eq_some_iff.mp kept
  have positive := least_le_of_optionalInt found
  omega

theorem within_of_optionalCount {n : Nat} (kept : (e.optionalCount key).value = some n) :
    1 ≤ n ∧ n ≤ maxCount := by
  simp only [optionalCount, Checked.value_bind] at kept
  split at kept
  · cases kept
  · next m found =>
      split at kept
      · next small =>
          cases kept
          have positive := least_le_of_optionalInt found
          omega
      · cases kept

end Entry

/-! ## Sections -/

theorem sectionItems_clean {s : Section} {fields : Fields} (clean : (sectionItems s fields).issues = []) :
    (sectionItems s fields).value ≠ [] := by
  unfold sectionItems at clean ⊢
  split at clean <;> simp at clean ⊢

/-- A walk that finds nothing wrong: every entry is a mapping that is read as a whole, under a name that is
new, and is kept as `finish` leaves it. -/
inductive CleanWalk {α β : Type} (s : Section) (read : Nat → Entry → Checked (Option String × Option α))
    (finish : Entry → α → Checked β) : List String → Nat → List Value → List β → Prop where
  | ends {seen : List String} {i : Nat} : CleanWalk s read finish seen i [] []
  | keeps {seen : List String} {i : Nat} {fields : Fields} {vs : List Value} {e : Entry} {name : String}
      {a : α} {rest : List β} (entry : e = ⟨s, [.key s.key, .item i], fields⟩)
      (clean : (read i e).issues = []) (value : (read i e).value = (some name, some a))
      (fresh : name ∉ seen) (finished : (finish e a).issues = [])
      (onward : CleanWalk s read finish (name :: seen) (i + 1) vs rest) :
      CleanWalk s read finish seen i (.obj fields :: vs) ((finish e a).value :: rest)

section Walks
variable {α β : Type} {s : Section} {key : String} {repeated : String → Reason}
  {read : Nat → Entry → Checked (Option String × Option α)} {finish : Entry → α → Checked β}

/-- Where nothing is missing in an entry without issues, a walk without issues keeps every entry. -/
theorem cleanWalk_of_issues
    (whole : ∀ i e, (read i e).issues = [] → ∃ name a, (read i e).value = (some name, some a)) :
    ∀ {items : List Value} {seen : List String} {i : Nat},
      (walk s key repeated read finish seen i items).issues = [] →
      CleanWalk s read finish seen i items (walk s key repeated read finish seen i items).value := by
  intro items
  induction items with
  | nil => intro seen i _; exact .ends
  | cons v vs ih =>
      intro seen i clean
      cases v with
      | obj fields =>
          obtain ⟨entry, found⟩ : ∃ e : Entry, e = ⟨s, [.key s.key, .item i], fields⟩ := ⟨_, rfl⟩
          have here : entryAt s i (.obj fields) = pure (some entry) := by rw [found]; rfl
          simp only [walk, here, Checked.clean_bind, Checked.value_pure, Checked.value_bind] at clean ⊢
          obtain ⟨_, clean, others⟩ := clean
          obtain ⟨name, a, value⟩ := whole i entry clean
          rw [value] at others ⊢
          simp only at others ⊢
          split at others
          · simp at others
          · next fresh =>
              rw [if_neg fresh]
              simp only [Checked.clean_bind] at others
              obtain ⟨finished, onward, _⟩ := others
              exact .keeps found clean value (by simpa using fresh) finished (ih onward)
      | null => simp [walk, entryAt] at clean
      | bool b => simp [walk, entryAt] at clean
      | num n => simp [walk, entryAt] at clean
      | str t => simp [walk, entryAt] at clean
      | arr vs => simp [walk, entryAt] at clean

/-- The entries that a clean walk keeps have different names, and each has what reading it promises. -/
theorem CleanWalk.named (named : β → String) {P : β → Prop}
    (keeps : ∀ i e name a, (read i e).issues = [] → (read i e).value = (some name, some a) →
      (finish e a).issues = [] → named (finish e a).value = name ∧ P (finish e a).value)
    {seen : List String} {i : Nat} {items : List Value} {kept : List β}
    (walked : CleanWalk s read finish seen i items kept) :
    kept.length = items.length ∧ (kept.map named).Nodup ∧ ∀ b ∈ kept, named b ∉ seen ∧ P b := by
  induction walked with
  | ends => simp
  | @keeps seen i fields vs e name a rest entry clean value fresh finished onward ih =>
      obtain ⟨count, distinct, later⟩ := ih
      obtain ⟨same, promised⟩ := keeps i e name a clean value finished
      refine ⟨by simp [count], ?_, ?_⟩
      · rw [List.map_cons, List.nodup_cons]
        refine ⟨?_, distinct⟩
        intro again
        obtain ⟨b, member, equal⟩ := List.mem_map.mp again
        refine (later b member).1 ?_
        rw [equal, same]
        exact List.mem_cons_self
      · intro b member
        rcases List.mem_cons.mp member with rfl | behind
        · exact ⟨same ▸ fresh, promised⟩
        · obtain ⟨apart, holds⟩ := later b behind
          exact ⟨fun old => apart (List.mem_cons_of_mem _ old), holds⟩

end Walks

end CrewFlow.Spec
