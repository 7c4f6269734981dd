import Mathlib
import CrewFlow.Execution.Store
import CrewFlow.Proofs.Time.Order
/-!
# A book of records

What is asked of a store and what it answers, told of a book in which each id has one record and each flow one
state. The book knows the order in which its ids came in and lists records by the times themselves. It has one
answer to every operation.
-/
set_option autoImplicit false

namespace CrewFlow.Execution

open Json (Value)
open Time (Instant)

/-! ## Operations -/

inductive Operation where
  | insert (r : Record)
  | update (r : Record)
  | get (id : String)
  | list (workflowId : String) (limit : Nat)
  | save (flowId method : String) (state : Value)
  | load (flowId : String)

namespace Operation

def recordId? : Operation → Option String
  | .insert r => some r.id
  | .update r => some r.id
  | .get id => some id
  | _ => none

def flowId? : Operation → Option String
  | .save flowId _ _ => some flowId
  | .load flowId => some flowId
  | _ => none

end Operation

inductive Answer where
  | done
  | refused (cause : StoreError)
  | found (r : Option Record)
  | listed (rs : List Record)
  | loaded (state : Option Value)

namespace Answer

/-- The answer of an operation that reads. -/
def ofRead {α : Type} (answer : α → Answer) : Except StoreError α → Answer
  | .ok a => answer a
  | .error cause => .refused cause

end Answer

/-! ## Books -/

/-- The ids in the order in which they came in, the record of each id, and the state of each flow. -/
structure Book where
  order : List String
  record : String → Option Record
  state : String → Option Value

namespace Book

def empty : Book := ⟨[], fun _ => none, fun _ => none⟩

/-- The records of a workflow: the newest first, and of records of one time the one that came in last. -/
structure Newest (b : Book) (workflowId : String) (rs : List Record) : Prop where
  members : ∀ r, r ∈ rs ↔ b.record r.id = some r ∧ r.workflowId = some workflowId
  sorted : rs.Pairwise fun x y =>
    y.createdAt.Before x.createdAt ∨ x.createdAt = y.createdAt ∧ [y.id, x.id].Sublist b.order

/-- What a book answers to an operation, and the book after it. -/
inductive Step (b : Book) : Operation → Answer → Book → Prop where
  | inserted {r : Record} (fresh : b.record r.id = none) :
      Step b (.insert r) .done
        { b with order := b.order ++ [r.id], record := Function.update b.record r.id (some r) }
  | taken {r old : Record} (there : b.record r.id = some old) : Step b (.insert r) (.refused .database) b
  | updated {r old : Record} (there : b.record r.id = some old) :
      Step b (.update r) .done
        { b with
          record := Function.update b.record r.id
            (some { old with
              status := r.status
              result := r.result
              updatedAt := r.updatedAt
              finishedAt := r.finishedAt }) }
  | missing {r : Record} (absent : b.record r.id = none) :
      Step b (.update r) (.refused (.invalid ("no execution '" ++ r.id ++ "'"))) b
  | got (id : String) : Step b (.get id) (.found (b.record id)) b
  | listed {workflowId : String} {rs : List Record} (newest : b.Newest workflowId rs) (limit : Nat) :
      Step b (.list workflowId limit) (.listed (rs.take limit)) b
  | saved (flowId method : String) (state : Value) :
      Step b (.save flowId method state) .done { b with state := Function.update b.state flowId (some state) }
  | loaded (flowId : String) : Step b (.load flowId) (.loaded (b.state flowId)) b

section Unique
variable {b : Book}

theorem not_sublist_pair {α : Type} {x y : α} {xs : List α} (distinct : xs.Nodup)
    (order : [x, y].Sublist xs) : ¬[y, x].Sublist xs := by
  intro other
  induction xs with
  | nil => cases order
  | cons a xs ih =>
      obtain ⟨once, distinct⟩ := List.nodup_cons.mp distinct
      cases order with
      | cons _ order =>
          cases other with
          | cons _ other => exact ih distinct order other
          | cons_cons _ other => exact once (order.subset (by simp))
      | cons_cons _ order =>
          cases other with
          | cons _ other => exact once (other.subset (by simp))
          | cons_cons _ other => exact once (other.subset (by simp))

theorem Newest.unique (distinct : b.order.Nodup) {workflowId : String} {xs ys : List Record}
    (left : b.Newest workflowId xs) (right : b.Newest workflowId ys) : xs = ys := by
  have apart : ∀ {rs : List Record}, b.Newest workflowId rs → rs.Nodup := by
    intro rs newest
    refine newest.sorted.imp ?_
    rintro x _ (before | ⟨-, order⟩) rfl
    · simp [Instant.Before] at before
    · exact not_sublist_pair distinct order order
  have perm : xs.Perm ys :=
    (List.perm_ext_iff_of_nodup (apart left) (apart right)).mpr fun r =>
      (left.members r).trans (right.members r).symm
  refine perm.eq_of_pairwise ?_ left.sorted right.sorted
  rintro x y _ _ (early | ⟨tie, order⟩) (late | ⟨same, other⟩)
  · simp only [Instant.Before] at early late
    omega
  · simp [same, Instant.Before] at early
  · simp [tie, Instant.Before] at late
  · exact absurd other (not_sublist_pair distinct order)

theorem Step.unique (distinct : b.order.Nodup) {op : Operation} {answer other : Answer} {next last : Book}
    (left : b.Step op answer next) (right : b.Step op other last) : answer = other ∧ next = last := by
  cases left with
  | inserted fresh =>
      cases right with
      | inserted => exact ⟨rfl, rfl⟩
      | taken there => simp [fresh] at there
  | taken there =>
      cases right with
      | inserted fresh => simp [fresh] at there
      | taken => exact ⟨rfl, rfl⟩
  | updated there =>
      cases right with
      | updated also =>
          cases there.symm.trans also
          exact ⟨rfl, rfl⟩
      | missing absent => simp [absent] at there
  | missing absent =>
      cases right with
      | updated there => simp [absent] at there
      | missing => exact ⟨rfl, rfl⟩
  | listed newest limit =>
      cases right with
      | listed also =>
          rw [newest.unique distinct also]
          exact ⟨rfl, rfl⟩
  | got id =>
      cases right
      exact ⟨rfl, rfl⟩
  | saved flowId method state =>
      cases right
      exact ⟨rfl, rfl⟩
  | loaded flowId =>
      cases right
      exact ⟨rfl, rfl⟩

end Unique

/-- Operations one after the other. -/
inductive Run : Book → List Operation → List Answer → Book → Prop where
  | nil (b : Book) : Run b [] [] b
  | cons {b next last : Book} {op : Operation} {ops : List Operation} {answer : Answer}
      {answers : List Answer} (step : b.Step op answer next) (rest : Run next ops answers last) :
      Run b (op :: ops) (answer :: answers) last

end Book

end CrewFlow.Execution
