import Taskfire.Model.Job
import Mathlib.Order.Compare

/-!
# The order of members

Records are compared field by field, in the order in which the encoders write them, and stand before
texts that are none.  The order is total and lawful.
-/

namespace Taskfire

instance : Std.TransOrd JobStatus :=
  inferInstanceAs (Std.TransCmp (compareOn JobStatus.ctorIdx))

instance : Std.LawfulEqOrd JobStatus where
  eq_of_compare := by
    intro first second same
    cases first <;> cases second <;> first | rfl | exact absurd same (by decide)

/-- The comparison of two records, field by field. -/
def JobJson.order : JobJson → JobJson → Ordering :=
  compareLex (compareOn JobJson.id) <| compareLex (compareOn JobJson.jobType) <|
  compareLex (compareOn JobJson.payload) <| compareLex (compareOn JobJson.priority) <|
  compareLex (compareOn JobJson.status) <| compareLex (compareOn JobJson.maxRetries) <|
  compareLex (compareOn JobJson.retryCount) <| compareLex (compareOn JobJson.createdAt) <|
  compareLex (compareOn JobJson.scheduledAt) <| compareLex (compareOn JobJson.startedAt) <|
  compareLex (compareOn JobJson.completedAt) <| compareLex (compareOn JobJson.failedAt) <|
  compareLex (compareOn JobJson.errorMessage) (compareOn JobJson.dependencies)

theorem JobJson.compare_eq (first second : JobJson) :
    compare first second = JobJson.order first second := by
  cases first
  cases second
  simp only [compare, instOrdJobJson.ord, JobJson.order, compareLex, compareOn, Ordering.then_eq]

instance : Std.TransOrd JobJson := by
  have same : (compare : JobJson → JobJson → Ordering) = JobJson.order :=
    funext fun first => funext (JobJson.compare_eq first)
  have lawful : Std.TransCmp JobJson.order := by
    unfold JobJson.order
    infer_instance
  unfold Std.TransOrd
  rw [same]
  exact lawful

instance : Std.LawfulEqOrd JobJson where
  eq_of_compare := by
    intro first second same
    rw [JobJson.compare_eq] at same
    simp only [JobJson.order, compareLex, compareOn, Ordering.then_eq_eq,
      Std.compare_eq_iff_eq] at same
    cases first
    cases second
    simp_all

/-- A member as its record, or as its text where it is none: records come first. -/
def Member.split : Member → Option String × Option JobJson
  | .record json => (none, some json)
  | .text content => (some content, none)

theorem Member.compare_eq (first second : Member) :
    compare first second = compareLex (compareOn fun member => member.split.1)
      (compareOn fun member => member.split.2) first second := by
  cases first <;> cases second <;>
    simp [compare, instOrdMember.ord, compareLex, compareOn, Member.split]

instance : Std.TransOrd Member := by
  have same : (compare : Member → Member → Ordering) = compareLex
      (compareOn fun member => member.split.1) (compareOn fun member => member.split.2) :=
    funext fun first => funext (Member.compare_eq first)
  unfold Std.TransOrd
  rw [same]
  infer_instance

instance : Std.LawfulEqOrd Member where
  eq_of_compare := by
    intro first second same
    rw [Member.compare_eq] at same
    simp only [compareLex, compareOn, Ordering.then_eq_eq, Std.compare_eq_iff_eq] at same
    cases first <;> cases second <;> simp_all [Member.split]

end Taskfire
