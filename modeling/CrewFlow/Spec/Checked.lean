import CrewFlow.Spec.Issue
/-!
# Checks that collect issues

A check yields a value whatever it finds, and the issues on the side. Checks that follow each other
join their issues in order, so a document passes exactly when every check in it is clean.
-/
namespace CrewFlow.Spec

/-- A value with the issues found on the way to it. -/
structure Checked (α : Type) where
  value : α
  issues : List Issue

namespace Checked

protected def pure {α : Type} (a : α) : Checked α := ⟨a, []⟩

protected def bind {α β : Type} (c : Checked α) (f : α → Checked β) : Checked β :=
  let d := f c.value
  ⟨d.value, c.issues ++ d.issues⟩

instance : Monad Checked where
  pure := Checked.pure
  bind := Checked.bind

def report (s : Section) (path : Path) (reason : Reason) : Checked Unit :=
  ⟨(), [⟨s, path, reason⟩]⟩

def reject {α : Type} (s : Section) (path : Path) (reason : Reason) : Checked (Option α) :=
  ⟨none, [⟨s, path, reason⟩]⟩

def reportIf (fault : Bool) (s : Section) (path : Path) (reason : Reason) : Checked Unit :=
  if fault then report s path reason else pure ()

@[simp]
theorem value_pure {α : Type} (a : α) : (pure a : Checked α).value = a := rfl

@[simp]
theorem issues_pure {α : Type} (a : α) : (pure a : Checked α).issues = [] := rfl

@[simp]
theorem value_bind {α β : Type} (c : Checked α) (f : α → Checked β) :
    (c >>= f).value = (f c.value).value := rfl

@[simp]
theorem issues_bind {α β : Type} (c : Checked α) (f : α → Checked β) :
    (c >>= f).issues = c.issues ++ (f c.value).issues := rfl

end Checked

end CrewFlow.Spec
