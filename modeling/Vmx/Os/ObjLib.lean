import Vmx.Kernel.State

/-!
# `objLib`: the check of an object id

`OBJ_VERIFY` answers `OK` or `ERROR`.  It is a macro, a conditional expression
without brackets around it, so a comparison with its value is part of the last
branch.
-/

namespace Vmx

/-- `OBJ_VERIFY(objId, classId) != OK`, for an object that is of the class or not. -/
def objVerifyNeOK (verified : Bool) : Bool :=
  (if verified then OK else if ERROR ≠ OK then 1 else 0) != 0

/-- `OBJ_VERIFY(objId, classId) == OK`. -/
def objVerifyEqOK (verified : Bool) : Bool :=
  (if verified then OK else if ERROR = OK then 1 else 0) != 0

/-- The test for a bad object is right. -/
@[simp] theorem objVerifyNeOK_eq (verified : Bool) : objVerifyNeOK verified = !verified := by
  cases verified <;> rfl

/-- The test for a good object never holds. -/
@[simp] theorem objVerifyEqOK_eq (verified : Bool) : objVerifyEqOK verified = false := by
  cases verified <;> rfl

end Vmx
